import Scoresheet.Proofs.Lookup
/-!
# What the inputs hold

The input of a field is its raw input in the declared shape, and beside a matrix that tracks crashes stand as many
crash positions as there are judges (`get?_normalize_code`, `get?_normalize_crashKey`).  Fields write one after the
other, so both hold for a key that no later field writes too.  Raw inputs that differ under crash keys only make inputs
that differ there only (`get?_normalize_congr`).
-/
namespace Scoresheet

/-! ## Crash keys -/

theorem crashCode?_crashKey (code : String) : crashCode? (crashKey code) = some code := by
  have hlength : crashMark.toList.length = crashMark.length := by decide
  have hprefix : crashMark.toList.isPrefixOf (crashKey code).toList = true := by
    rw [crashKey, String.toList_append, List.isPrefixOf_iff_prefix]
    exact List.prefix_append _ _
  rw [crashCode?, if_pos hprefix, crashKey, String.toList_append, List.drop_left' hlength, String.ofList_toList]

theorem crashKey_inj {c d : String} : crashKey c = crashKey d ↔ c = d := by
  refine ⟨fun h => ?_, fun h => by rw [h]⟩
  have hcode := congrArg crashCode? h
  rw [crashCode?_crashKey, crashCode?_crashKey] at hcode
  exact Option.some.inj hcode

theorem ne_crashKey_self (code : String) : code ≠ crashKey code := by
  intro h
  have hlength := congrArg (fun s => s.toList.length) h
  simp only [crashKey, String.toList_append, List.length_append] at hlength
  have hmark : crashMark.toList.length = 9 := by decide
  omega

theorem crashCode?_eq_none_of_isSafeName {name : String} (h : Text.isSafeName name = true) :
    crashCode? name = none := by
  have hinternal := Text.isInternal_of_isSafeName h
  rw [Text.isInternal, Bool.eq_false_iff, Ne, List.isPrefixOf_iff_prefix] at hinternal
  have hmark : ['_', '_'] <+: crashMark.toList := by decide
  rw [crashCode?, if_neg]
  rw [List.isPrefixOf_iff_prefix]
  exact fun hprefix => hinternal (hmark.trans hprefix)

/-! ## One field -/

namespace Field

variable {f : Field} {raw raw' inputs inputs' : Table Value}

theorem get?_contribute_code (hcode : f.code.isEmpty = false) :
    (f.contribute raw inputs).get? f.code = some (f.normal ((raw.get? f.code).getD .null)) := by
  rw [contribute, hcode]
  exact Table.get?_insert_self _ _ _

theorem get?_contribute_crashKey (hcode : f.code.isEmpty = false) (htracks : f.tracksCrash = true) :
    (f.contribute raw inputs).get? (crashKey f.code) =
      some (.ofScores ((f.crashPositions ((raw.get? (crashKey f.code)).getD .null)).map Score.ofInt)) := by
  rw [contribute, hcode, htracks]
  simp only [Bool.false_eq_true, if_false, if_true]
  rw [Table.get?_insert_of_ne _ _ (ne_crashKey_self f.code).symm, Table.get?_insert_self]

theorem get?_contribute_congr (hraw : ∀ k, crashCode? k = none → raw.get? k = raw'.get? k)
    (hinputs : ∀ k, crashCode? k = none → inputs.get? k = inputs'.get? k) {k : String} (hk : crashCode? k = none) :
    (f.contribute raw inputs).get? k = (f.contribute raw' inputs').get? k := by
  have hne : k ≠ crashKey f.code := by
    rintro rfl
    rw [crashCode?_crashKey] at hk
    cases hk
  by_cases hcode : k = f.code
  · by_cases hempty : f.code.isEmpty = true
    · rw [contribute, contribute, if_pos hempty, if_pos hempty]
      exact hinputs k hk
    · rw [Bool.not_eq_true] at hempty
      rw [hcode, get?_contribute_code hempty, get?_contribute_code hempty, hraw _ (hcode ▸ hk)]
  · rw [f.get?_contribute raw inputs hcode fun _ => hne, f.get?_contribute raw' inputs' hcode fun _ => hne]
    exact hinputs k hk

end Field

@[simp] theorem Value.length_padded (v : Value) (n : Nat) : (v.padded n).length = n := by
  rw [padded, List.length_map, List.length_range]

@[simp] theorem Field.length_crashPositions (f : Field) (v : Value) : (f.crashPositions v).length = f.judgeCount := by
  rw [crashPositions, List.length_map, Value.length_padded]

/-- A matrix of numbers. -/
def Value.ofMatrix (rows : List (List Score)) : Value := .list (rows.map .ofScores)

theorem Field.normal_matrix {f : Field} (hlayout : f.layout = .matrix) (v : Value) :
    f.normal v = .ofMatrix ((v.padded f.judgeCount).map fun row => (row.padded f.itemCount).map f.cell) := by
  rw [normal, hlayout, Value.ofMatrix, List.map_map]
  rfl

/-! ## All fields -/

section

variable {fields : List Field} {f : Field} {raw raw' : Table Value}

theorem get?_foldl_contribute {k : String} : ∀ (fields : List Field) (inputs : Table Value),
    (∀ f ∈ fields, k ≠ f.code ∧ (f.tracksCrash = true → k ≠ crashKey f.code)) →
      (fields.foldl (fun inputs f => f.contribute raw inputs) inputs).get? k = inputs.get? k
  | [], _, _ => rfl
  | f :: fields, inputs, h => by
    obtain ⟨hf, hfields⟩ := List.forall_mem_cons.1 h
    rw [List.foldl_cons, get?_foldl_contribute fields _ hfields]
    exact f.get?_contribute raw inputs hf.1 hf.2

/-- The last field that writes under a key counts. -/
theorem get?_normalize_append {k : String} {before after : List Field}
    (h : ∀ g ∈ after, k ≠ g.code ∧ (g.tracksCrash = true → k ≠ crashKey g.code)) :
    (normalize (before ++ f :: after) raw).get? k = (f.contribute raw (normalize before raw)).get? k := by
  rw [normalize, List.foldl_append, List.foldl_cons]
  exact get?_foldl_contribute after _ h

/-- **The input of a field is its raw input in the declared shape**, unless its code is the crash key of a field. -/
theorem get?_normalize_code (hnodup : (fields.map (·.code)).Nodup) (hf : f ∈ fields) (hcode : f.code.isEmpty = false)
    (hcrash : ∀ g ∈ fields, g.tracksCrash = true → crashKey g.code ≠ f.code) :
    (normalize fields raw).get? f.code = some (f.normal ((raw.get? f.code).getD .null)) := by
  obtain ⟨before, after, rfl⟩ := List.append_of_mem hf
  rw [get?_normalize_append fun g hg => ⟨?_, fun htracks => ?_⟩]
  · exact Field.get?_contribute_code hcode
  · rw [List.map_append, List.map_cons] at hnodup
    have hnot := (List.nodup_cons.1 (List.nodup_append.1 hnodup).2.1).1
    exact fun he => hnot (he ▸ List.mem_map_of_mem hg)
  · exact (hcrash g (List.mem_append_right _ (List.mem_cons_of_mem _ hg)) htracks).symm

/-- **Beside a matrix that tracks crashes stands a crash position for each judge**, unless the key for them is the code
of a field. -/
theorem get?_normalize_crashKey (hnodup : (fields.map (·.code)).Nodup) (hf : f ∈ fields)
    (hcode : f.code.isEmpty = false) (htracks : f.tracksCrash = true)
    (hcrash : crashKey f.code ∉ fields.map (·.code)) : (normalize fields raw).get? (crashKey f.code) =
      some (.ofScores ((f.crashPositions ((raw.get? (crashKey f.code)).getD .null)).map Score.ofInt)) := by
  obtain ⟨before, after, rfl⟩ := List.append_of_mem hf
  rw [get?_normalize_append fun g hg => ⟨?_, fun _ => ?_⟩]
  · exact Field.get?_contribute_crashKey hcode htracks
  · exact fun he => hcrash (he ▸ List.mem_map_of_mem (List.mem_append_right _ (List.mem_cons_of_mem _ hg)))
  · rw [List.map_append, List.map_cons] at hnodup
    have hnot := (List.nodup_cons.1 (List.nodup_append.1 hnodup).2.1).1
    rw [Ne, crashKey_inj]
    exact fun he => hnot (he ▸ List.mem_map_of_mem hg)

/-- **Raw inputs that differ under crash keys only make inputs that differ there only.** -/
theorem get?_normalize_congr (hraw : ∀ k, crashCode? k = none → raw.get? k = raw'.get? k) (fields : List Field)
    {k : String} (hk : crashCode? k = none) : (normalize fields raw).get? k = (normalize fields raw').get? k := by
  suffices ∀ (fields : List Field) (inputs inputs' : Table Value),
      (∀ k, crashCode? k = none → inputs.get? k = inputs'.get? k) →
        (fields.foldl (fun inputs f => f.contribute raw inputs) inputs).get? k =
          (fields.foldl (fun inputs f => f.contribute raw' inputs) inputs').get? k from
    this fields .empty .empty fun _ _ => rfl
  intro fields
  induction fields with
  | nil => exact fun inputs inputs' h => h k hk
  | cons f fields ih =>
    exact fun inputs inputs' h => ih _ _ fun k hk => f.get?_contribute_congr hraw h hk

end
end Scoresheet
