import Mathlib.Data.List.Nodup
import Scoresheet.Proofs.Normalizing
import Scoresheet.Proofs.Owning

/-!
# Leaving undeclared inputs out

Raw inputs are split into those of declared fields and the names of all others, and nothing is lost
(`splits_retain`).  A score reads a raw sheet under the codes of fields and under their crash keys only
(`normalize_congr`), so what is left out changes no score (`score_retain`).

A key that starts like a crash key counts as one even where it is the code of a field.  Such a field keeps its own key
only if the rest of the key is a code as well (`Schema.KeepsCodes`); a clean schema may have a field whose own input is
left out (`not_score_retain`).
-/
namespace Scoresheet

namespace Table

variable {α : Type}

theorem get?_filter (p : String → α → Bool) (t : Table α) (k : String) :
    (t.filter p).get? k = (t.get? k).filter (p k) := by
  refine Option.ext fun v => ?_
  simp [get?_eq_some_iff, filter, Option.filter_eq_some_iff, List.mem_filter]

end Table

/-- A table taken apart: what is kept has its value, and every key is kept or dropped, not both. -/
structure Splits (raw kept : Table Value) (dropped : List String) : Prop where
  keys : (kept.keys ++ dropped).Perm raw.keys
  values : ∀ k v, kept.get? k = some v → raw.get? k = some v
  apart : ∀ k ∈ dropped, kept.get? k = none

namespace Schema

variable {s : Schema}

theorem get?_retain (s : Schema) (raw : Table Value) (k : String) :
    (s.retain raw).1.get? k = if s.declares k then raw.get? k else none := by
  rw [retain, Table.get?_filter]
  by_cases h : s.declares k = true
  · cases raw.get? k <;> simp [h]
  · cases raw.get? k <;> simp [h]

theorem splits_retain (s : Schema) (raw : Table Value) : Splits raw (s.retain raw).1 (s.retain raw).2 where
  keys := by
    have hkept : (s.retain raw).1.keys = raw.keys.filter s.declares := by
      simp only [retain, Table.filter, Table.keys, List.filter_map]
      rfl
    rw [hkept]
    exact List.filter_append_perm s.declares raw.keys
  values k v h := by
    rw [get?_retain] at h
    split at h
    · exact h
    · cases h
  apart k hk := by
    have hnot : s.declares k = false := by simpa using (List.mem_filter.1 hk).2
    rw [get?_retain, hnot]
    rfl

/-- No field has the crash key of a code that is no field for its code. -/
def KeepsCodes (s : Schema) : Prop :=
  ∀ f ∈ s.fields, ∀ code, crashCode? f.code = some code → (s.field? code).isSome = true

theorem isSome_field? {f : Field} (hf : f ∈ s.fields) : (s.field? f.code).isSome = true := by
  rw [field?, List.find?_isSome]
  exact ⟨f, hf, by simp⟩

theorem declares_code (h : s.KeepsCodes) {f : Field} (hf : f ∈ s.fields) : s.declares f.code = true := by
  unfold declares
  split
  · rename_i code hcode
    exact h f hf code hcode
  · exact isSome_field? hf

theorem declares_crashKey {f : Field} (hf : f ∈ s.fields) : s.declares (crashKey f.code) = true := by
  simp only [declares, crashCode?_crashKey]
  exact isSome_field? hf

end Schema

/-! ## What a score reads -/

/-- Raw inputs that agree on the codes of fields and on their crash keys become the same inputs. -/
theorem normalize_congr {fields : List Field} {raw raw' : Table Value}
    (h : ∀ f ∈ fields, raw.get? f.code = raw'.get? f.code ∧ raw.get? (crashKey f.code) = raw'.get? (crashKey f.code)) :
    normalize fields raw = normalize fields raw' := by
  suffices ∀ inputs : Table Value, fields.foldl (fun inputs f => f.contribute raw inputs) inputs =
      fields.foldl (fun inputs f => f.contribute raw' inputs) inputs from this .empty
  induction fields with
  | nil => intro inputs; rfl
  | cons f fields ih =>
    intro inputs
    obtain ⟨hf, hfields⟩ := List.forall_mem_cons.1 h
    have hstep : f.contribute raw inputs = f.contribute raw' inputs := by
      simp only [Field.contribute, hf.1, hf.2]
    rw [List.foldl_cons, List.foldl_cons, hstep]
    exact ih hfields _

namespace Scorer

theorem score_congr {sc : Scorer} {raw raw' : Table Value} (h : sc.normalize raw = sc.normalize raw') :
    sc.score raw = sc.score raw' := by
  simp only [score, scoreWith, h]

/-- **Leaving undeclared inputs out changes no score.**  The raw sheet is split, the own key of no field is dropped,
and what is kept scores as the whole sheet does. -/
theorem score_retain {s : Schema} (hlint : lint s = []) (hcodes : s.KeepsCodes) :
    ∃ sc, ofSchema s = .ok sc ∧ ∀ raw : Table Value, Splits raw (s.retain raw).1 (s.retain raw).2 ∧
      (∀ f ∈ s.fields, f.code ∉ (s.retain raw).2) ∧ sc.score (s.retain raw).1 = sc.score raw := by
  obtain ⟨nodes, hfit⟩ := fit_of_lint hlint
  obtain ⟨sc, hsc, -⟩ := hfit.exists_scorer
  refine ⟨sc, hsc, fun raw => ⟨s.splits_retain raw, fun f hf hdropped => ?_, score_congr ?_⟩⟩
  · have hnot : s.declares f.code = false := by simpa using (List.mem_filter.1 hdropped).2
    rw [Schema.declares_code hcodes hf] at hnot
    cases hnot
  · rw [normalize, normalize, schema_of_ofSchema hsc]
    refine normalize_congr fun f hf => ⟨?_, ?_⟩
    · rw [Schema.get?_retain, if_pos (Schema.declares_code hcodes hf)]
    · rw [Schema.get?_retain, if_pos (Schema.declares_crashKey hf)]

theorem score_retain_note : ∃ s sc raw, lint s = [] ∧ s.KeepsCodes ∧ ofSchema s = .ok sc ∧
    (s.retain raw).2 = ["note"] ∧ sc.score (s.retain raw).1 = sc.score raw := by
  let s : Schema := { Schema.ofFormulas [] [("T", none, "A + B")] with
    fields := [.ofNumber "A" none, .ofNumber "B" none, .ofNumber "__crash__A" none] }
  let raw : Table Value := .ofList [("A", .number 1), ("__crash__A", .number 2), ("note", .text "late")]
  have hlint : lint s = [] := by decide +kernel
  have hcodes : s.KeepsCodes := by
    intro f hf code hcode
    have hall : ∀ f ∈ s.fields, ∀ code ∈ crashCode? f.code, (s.field? code).isSome = true := by decide +kernel
    exact hall f hf code hcode
  obtain ⟨sc, hsc, hall⟩ := score_retain hlint hcodes
  exact ⟨s, sc, raw, hlint, hcodes, hsc, by decide +kernel, (hall raw).2.2⟩

/-- A clean schema may lose the own input of a field, and with it the score. -/
theorem not_score_retain : ∃ s sc raw f, lint s = [] ∧ ofSchema s = .ok sc ∧ f ∈ s.fields ∧
    f.code ∈ (s.retain raw).2 ∧ sc.score (s.retain raw).1 ≠ sc.score raw := by
  let s : Schema := { Schema.ofFormulas [] [("T", none, "k")] with fields := [.ofNumber "__crash__E" (some "k")] }
  let raw : Table Value := .ofList [("__crash__E", .number 1)]
  have hlint : lint s = [] := by decide +kernel
  obtain ⟨nodes, hfit⟩ := fit_of_lint hlint
  obtain ⟨sc, hsc, -⟩ := hfit.exists_scorer
  have hdropped : "__crash__E" ∈ (s.retain raw).2 := by decide +kernel
  let found (r : Result Outcome) : Option Score := do (← (← r.toOption).outputs.get? "T").toScore
  have hkept : ((ofSchema s).toOption.map fun sc => found (sc.score (s.retain raw).1)) = some (some 0) := by
    decide +kernel
  have hwhole : ((ofSchema s).toOption.map fun sc => found (sc.score raw)) = some (some 1) := by decide +kernel
  refine ⟨s, sc, raw, .ofNumber "__crash__E" (some "k"), hlint, hsc, List.mem_cons_self, hdropped, fun heq => ?_⟩
  rw [hsc] at hkept hwhole
  have hsame : some (some (0 : Score)) = some (some 1) := by
    rw [← hkept, ← hwhole]
    exact congrArg (fun r => some (found r)) heq
  exact absurd hsame (by decide)

end Scorer

end Scoresheet
