import Scoresheet.Proofs.Linting
import Scoresheet.Proofs.Naming
import Scoresheet.Proofs.Normalizing
/-!
# Codes that stand for themselves

A name that is declared as a short name stands for another code, even where the name is a code itself.  The linter
compares short names with short names and codes with codes, so it lets a short name take a code
(`not_ownsCode_of_lint`).  A field's code that no short name takes means the field's own input, wherever a run has come
to (`ownsCode_of_lint`).  Where no code at all is taken, every name means what the code means that it stands for
(`Fit.lookup_eq`).
-/
namespace Scoresheet

open Plan (target)

/-- No short name takes the code of an entry; one that is a code stands for just that code. -/
def Schema.CodesApart (s : Schema) : Prop := ∀ code ∈ s.codes, target s.aliases code = code

instance (s : Schema) : Decidable s.CodesApart := by
  unfold Schema.CodesApart
  infer_instance

/-- No field has the crash key of a field as its code. -/
def Schema.CrashKeysApart (s : Schema) : Prop :=
  ∀ f ∈ s.fields, f.tracksCrash = true → crashKey f.code ∉ s.fields.map (·.code)

instance (s : Schema) : Decidable s.CrashKeysApart := by
  unfold Schema.CrashKeysApart
  infer_instance

namespace Context

theorem lookup_eq_of_target_eq {cx : Context} (h : cx.Tracks) {name : String}
    (hname : target cx.aliases name = name) : cx.lookup name = cx.meaning name := by
  rw [target] at hname
  rw [lookup, h name]
  cases ha : cx.aliases.get? name with
  | none => simp [meaning]
  | some code =>
    obtain rfl : code = name := by simpa [ha] using hname
    cases hout : cx.outputs.get? code <;> simp [meaning, hout]

end Context

/-! ## Fields -/

namespace Scorer

variable {s : Schema} {sc : Scorer} {raw inputs : Table Value} {cx : Context} {f : Field}

/-- No run stores an output under the code of a field. -/
theorem Reached.meaning_field (h : ofSchema s = .ok sc) (hr : sc.Reached inputs cx) (hf : f ∈ s.fields)
    (hparams : f.code ≠ "params") : cx.meaning f.code = inputs.get? f.code := by
  have horder : f.code ∉ sc.order := fun ho => (mem_codes_of_mem_order h ho).2 (List.mem_map_of_mem hf)
  rw [Context.meaning, hr.outputs_eq_none horder, Option.none_or, Context.base?, if_neg hparams, hr.inputs_eq]

/-- A context in which the code of a field means the field's own input: the one under its code, and unless some field
has that code as its crash key, the raw input in the declared shape. -/
structure OwnsCode (sc : Scorer) (raw : Table Value) (cx : Context) (f : Field) : Prop where
  input : cx.lookup f.code = (sc.normalize raw).get? f.code
  isSome : (cx.lookup f.code).isSome = true
  normal : (∀ g ∈ sc.schema.fields, g.tracksCrash = true → crashKey g.code ≠ f.code) →
    cx.lookup f.code = some (f.normal ((raw.get? f.code).getD .null))

theorem Reached.ownsCode (h : ofSchema s = .ok sc) (hr : sc.Reached (sc.normalize raw) cx) (hf : f ∈ s.fields)
    (hcode : f.code.isEmpty = false) (hparams : f.code ≠ "params") (htarget : target s.aliases f.code = f.code) :
    sc.OwnsCode raw cx f := by
  have hinput : cx.lookup f.code = (sc.normalize raw).get? f.code := by
    rw [← aliases_of_ofSchema h, ← hr.aliases_eq] at htarget
    rw [Context.lookup_eq_of_target_eq hr.tracks htarget, hr.meaning_field h hf hparams]
  have hnodup := Schema.nodup_fields (nodup_codes_of_ofSchema h)
  refine ⟨hinput, ?_, fun hcrash => ?_⟩
  · rw [hinput, normalize, schema_of_ofSchema h]
    exact isSome_normalize raw hcode _ hf
  · rw [schema_of_ofSchema h] at hcrash
    rw [hinput, normalize, schema_of_ofSchema h]
    exact get?_normalize_code hnodup hf hcode hcrash

end Scorer

/-- **In a clean schema the code of a field means the field's own input**, after any number of formulas, unless it is
taken as a short name for another entry. -/
theorem ownsCode_of_lint {s : Schema} (hlint : lint s = []) : ∃ sc, Scorer.ofSchema s = .ok sc ∧
    ∀ raw cx, sc.Reached (sc.normalize raw) cx → ∀ f ∈ s.fields, target s.aliases f.code = f.code →
      sc.OwnsCode raw cx f := by
  obtain ⟨nodes, hfit⟩ := fit_of_lint hlint
  obtain ⟨sc, h, -⟩ := hfit.exists_scorer
  refine ⟨sc, h, fun raw cx hr f hf htarget => ?_⟩
  have hcode := Schema.mem_codes_of_field hf
  exact hr.ownsCode h hf (Text.isEmpty_of_isIdentifier (hfit.code _ hcode).1) (hfit.ne_params hcode) htarget

/-- A number that judges enter, perhaps with a short name. -/
def Field.ofNumber (code : String) (var : Option String) : Field :=
  ⟨code, none, some "number", none, none, none, none, none, none, none, var, .empty⟩

theorem ownsCode_of_lint_numbers : ∃ s sc raw cx f, lint s = [] ∧ Scorer.ofSchema s = .ok sc ∧
    sc.Reached (sc.normalize raw) cx ∧ f ∈ s.fields ∧ target s.aliases f.code = f.code ∧ sc.OwnsCode raw cx f := by
  let s : Schema := { Schema.ofFormulas [] [("T", none, "a + B")] with
    fields := [.ofNumber "A" (some "a"), .ofNumber "B" (some "T2")] }
  have hlint : lint s = [] := by decide +kernel
  have hok : (Scorer.ofSchema s >>= fun sc => sc.run Dialect.compile (sc.normalize .empty) : Result Context).isOk =
      true := by decide +kernel
  obtain ⟨sc, h, howns⟩ := ownsCode_of_lint hlint
  obtain ⟨cx, hcx⟩ := exists_ok hok
  obtain ⟨sc', h', hrun⟩ := bind_eq_ok_iff.1 hcx
  rw [h] at h'
  cases h'
  have hr := Scorer.reached_of_runs hrun
  have hf : Field.ofNumber "A" (some "a") ∈ s.fields := List.mem_cons_self
  have htarget : target s.aliases "A" = "A" := by decide +kernel
  exact ⟨s, sc, .empty, cx, _, hlint, h, hr, hf, htarget, howns .empty cx hr _ hf htarget⟩

/-- **A clean schema may have the code of a field taken**: here the first field's short name is the second one's
code. -/
theorem not_ownsCode_of_lint : ¬ ∀ (s : Schema) (sc : Scorer) (raw : Table Value) (cx : Context) (f : Field),
    lint s = [] → Scorer.ofSchema s = .ok sc → sc.Reached (sc.normalize raw) cx → f ∈ s.fields →
      cx.lookup f.code = (sc.normalize raw).get? f.code := by
  intro hall
  let s : Schema := { Schema.ofFormulas [] [("T", none, "B")] with
    fields := [.ofNumber "A" (some "B"), .ofNumber "B" none] }
  let raw : Table Value := .ofList [("A", .number 1), ("B", .number 2)]
  have hlint : lint s = [] := by decide +kernel
  obtain ⟨nodes, hfit⟩ := fit_of_lint hlint
  obtain ⟨sc, h, -⟩ := hfit.exists_scorer
  have hr : sc.Reached (sc.normalize raw) (sc.begin (sc.normalize raw)) :=
    ⟨[], sc.plan, rfl, Scorer.runs_nil.2 rfl⟩
  have hlookup := hall s sc raw _ _ hlint h hr (List.mem_cons_of_mem _ List.mem_cons_self)
  rw [Scorer.begin, Scorer.normalize, Scorer.schema_of_ofSchema h, Scorer.aliases_of_ofSchema h] at hlookup
  have hne : ((Context.start s (normalize s.fields raw) s.aliases).lookup "B").map Value.toScore ≠
      ((normalize s.fields raw).get? "B").map Value.toScore := by decide +kernel
  exact hne (congrArg (Option.map Value.toScore) hlookup)

/-! ## All names -/

namespace Schema.Fit

variable {s : Schema} {nodes : List Node} {sc : Scorer} {raw : Table Value} {cx : Context}

/-- **Where no code is taken a name means what the code means that it stands for**, in every context of a run. -/
theorem lookup_eq (hfit : s.Fit nodes) (hcodes : s.CodesApart) (h : Scorer.ofSchema s = .ok sc)
    (hr : sc.Reached (sc.normalize raw) cx) {name : String} (hsafe : Text.isSafeName name = true) :
    cx.lookup name = cx.meaning (target s.aliases name) := by
  have haliases : cx.aliases = s.aliases := by rw [hr.aliases_eq, Scorer.aliases_of_ofSchema h]
  by_cases hcode : name ∈ s.codes
  · have htarget := hcodes name hcode
    rw [htarget]
    exact Context.lookup_eq_of_target_eq hr.tracks (by rw [haliases, htarget])
  · rw [← haliases]
    refine Context.lookup_eq hr.tracks fun hname => ?_
    rw [haliases, Table.contains_eq_true_iff] at hname
    exact hr.meaning_eq_none h hcode (hfit.shortName_ne_params hname) hsafe

theorem canonical_eq (hcodes : s.CodesApart) (h : Scorer.ofSchema s = .ok sc) (hr : sc.Reached (sc.normalize raw) cx)
    (name : String) : cx.canonical name = target s.aliases name := by
  have haliases : cx.aliases = s.aliases := by rw [hr.aliases_eq, Scorer.aliases_of_ofSchema h]
  rw [Context.canonical, ← haliases]
  split
  · rename_i hout
    have horder : name ∈ sc.order := by
      by_contra hnot
      rw [Table.contains, hr.outputs_eq_none hnot] at hout
      cases hout
    rw [haliases, hcodes name (Scorer.mem_codes_of_mem_order h horder).1]
  · rfl

end Schema.Fit
end Scoresheet
