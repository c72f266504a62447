import Scoresheet.Proofs.Running
/-!
# What names mean during a run

No input has the code of a computed entry, and where short names stay apart from codes a name means, in every context
that a run comes to, what the code means that it stands for (`Reached.lookup_eq`).  A code that means something keeps
its meaning when more outputs are stored (`meaning_storeAll`).
-/
namespace Scoresheet

open Plan (target)

/-- No short name is the code of an entry or stands in front of the parameters. -/
def Schema.ShortNamesApart (s : Schema) : Prop := ∀ short ∈ s.aliases.keys, short ∉ s.codes ∧ short ≠ "params"

instance (s : Schema) : Decidable s.ShortNamesApart := by
  unfold Schema.ShortNamesApart
  infer_instance

theorem Schema.mem_codes_of_field {s : Schema} {f : Field} (hf : f ∈ s.fields) : f.code ∈ s.codes :=
  List.mem_append_left _ (List.mem_map_of_mem hf)

theorem Schema.nodup_fields {s : Schema} (h : s.codes.Nodup) : (s.fields.map (·.code)).Nodup :=
  (List.nodup_append.1 h).1

namespace Context

theorem meaning_storeAll {cx : Context} {l : List (String × Value)} {code : String} (h : code ∉ l.map Prod.fst) :
    (cx.storeAll l).meaning code = cx.meaning code := by
  rw [meaning, meaning, outputs_storeAll_of_notMem l cx h, storeAll_schema, storeAll_inputs]

end Context

namespace Scorer

variable {s : Schema} {sc : Scorer} {raw : Table Value} {cx : Context}

/-- The input of a code that is not a field's is missing, unless the code is an internal key. -/
theorem normalize_eq_none (h : ofSchema s = .ok sc) {k : String} (hk : k ∉ s.fields.map (·.code))
    (hinternal : Text.isInternal k = false) : (sc.normalize raw).get? k = none := by
  rw [normalize, schema_of_ofSchema h]
  refine get?_normalize_eq_none raw _ fun f hf => ⟨fun he => hk (he ▸ List.mem_map_of_mem hf), fun he => ?_⟩
  rw [he, isInternal_crashKey] at hinternal
  cases hinternal

theorem mem_codes_of_mem_order (h : ofSchema s = .ok sc) {k : String} (hk : k ∈ sc.order) :
    k ∈ s.codes ∧ k ∉ s.fields.map (·.code) := by
  obtain ⟨c, hc, -, rfl⟩ := (mem_order_of_ofSchema h).1 hk
  have hmem : c.code ∈ s.computed.map (·.code) := List.mem_map_of_mem hc
  have hnodup := nodup_codes_of_ofSchema h
  rw [Schema.codes] at hnodup ⊢
  exact ⟨List.mem_append_right _ hmem, fun hf => (List.nodup_append.1 hnodup).2.2 _ hf _ hmem rfl⟩

/-- **No code of the plan has an input.** -/
theorem normalize_eq_none_of_mem_order (h : ofSchema s = .ok sc)
    (hinternal : ∀ code ∈ s.codes, Text.isInternal code = false) {k : String} (hk : k ∈ sc.order) :
    (sc.normalize raw).get? k = none := by
  obtain ⟨hcode, hfield⟩ := mem_codes_of_mem_order h hk
  exact normalize_eq_none h hfield (hinternal k hcode)

/-- A name that is no code has no meaning of its own. -/
theorem Reached.meaning_eq_none (h : ofSchema s = .ok sc) (hr : sc.Reached (sc.normalize raw) cx) {name : String}
    (hcode : name ∉ s.codes) (hparams : name ≠ "params") (hsafe : Text.isSafeName name = true) :
    cx.meaning name = none := by
  have hfield : name ∉ s.fields.map (·.code) := fun hf => hcode (List.mem_append_left _ hf)
  have hout : cx.outputs.get? name = none := hr.outputs_eq_none fun ho => hcode (mem_codes_of_mem_order h ho).1
  rw [Context.meaning, hout, Context.base?, if_neg hparams, hr.inputs_eq, Option.none_or]
  exact normalize_eq_none h hfield (Text.isInternal_of_isSafeName hsafe)

theorem Reached.shortName_apart (h : ofSchema s = .ok sc) (hshort : s.ShortNamesApart) {inputs : Table Value}
    (hr : sc.Reached inputs cx) {name : String} (hname : cx.aliases.contains name = true) :
    name ∉ s.codes ∧ name ≠ "params" := by
  rw [hr.aliases_eq, aliases_of_ofSchema h, Table.contains_eq_true_iff] at hname
  exact hshort name hname

/-- **In every context of a run a name means what the code means that it stands for.** -/
theorem Reached.lookup_eq (h : ofSchema s = .ok sc) (hshort : s.ShortNamesApart)
    (hr : sc.Reached (sc.normalize raw) cx) {name : String} (hsafe : Text.isSafeName name = true) :
    cx.lookup name = cx.meaning (target s.aliases name) := by
  rw [← aliases_of_ofSchema h, ← hr.aliases_eq]
  refine Context.lookup_eq hr.tracks fun hname => ?_
  obtain ⟨hcode, hparams⟩ := hr.shortName_apart h hshort hname
  exact hr.meaning_eq_none h hcode hparams hsafe

/-- The code that a name refers to is the same throughout a run. -/
theorem Reached.canonical_eq (h : ofSchema s = .ok sc) (hshort : s.ShortNamesApart)
    (hr : sc.Reached (sc.normalize raw) cx) {name : String} (hsafe : Text.isSafeName name = true) :
    cx.canonical name = target s.aliases name := by
  rw [← aliases_of_ofSchema h, ← hr.aliases_eq]
  refine Context.canonical_eq fun hname => ?_
  obtain ⟨hcode, hparams⟩ := hr.shortName_apart h hshort hname
  have hnone := hr.meaning_eq_none h hcode hparams hsafe
  rw [Context.meaning, Option.or_eq_none_iff] at hnone
  exact hnone.1

end Scorer
end Scoresheet
