import Scoresheet.Proofs.Trimming
/-!
# What is picked

Whatever the marks are, NaNs and infinities among them, and whatever count is asked for, a criterion picks positions of
marks, each of them once, and at least one where there are marks at all.  The marks that it selects are the marks at
those positions, each as often as it is picked (`select_perm_places`).
-/
namespace Scoresheet
namespace Criterion

open Guarded (markAt)

/-! ## At least one entry -/

section

variable {α β : Type} [Mark α] (key : β → α) {count : Nat} {xs : List β}

theorem le_length_dropFarthest (xs : List β) : xs.length ≤ (dropFarthest key xs).length + 1 := by
  unfold dropFarthest
  split
  · exact Nat.le_succ _
  · split
    · exact Nat.le_succ _
    · rw [List.length_eraseIdx]
      split <;> omega

theorem le_length_trim (h : count ≤ xs.length) : count ≤ (trim key count xs).length := by
  have hblock := length_dropPairs h
  unfold trim
  dsimp only
  split
  · have hfarthest := le_length_dropFarthest key (dropPairs count xs)
    omega
  · omega

theorem length_pick_pos (c : Criterion) (h : xs ≠ []) : 0 < (c.pick key xs).length := by
  have hpos : 1 ≤ xs.length := List.length_pos_iff.2 h
  have hone := one_le_countOf hpos
  have hle := countOf_le hpos
  unfold pick
  rw [if_neg (by simpa using h)]
  cases c with
  | worst count | best count =>
    have := hone count
    simp only [List.length_take, length_ascending, length_descending]
    omega
  | all count =>
    have := hone count
    dsimp only
    split
    · rw [List.length_take, length_descending]
      omega
    · exact hpos
  | dropExtremes =>
    dsimp only
    split
    · rwa [length_ascending]
    · rw [List.length_dropLast, List.length_tail, length_ascending]
      omega
  | dropExtremesUntil count =>
    have hasked : clampCount xs.length count ≤ (ascending key xs).length := by
      rw [length_ascending]
      exact hle (some count)
    dsimp only
    rw [length_dropInTurn true hasked]
    exact hone (some count)
  | trimToMedian count =>
    have hasked : countOf xs.length count ≤ (ascending key xs).length := by
      rw [length_ascending]
      exact hle count
    exact Nat.lt_of_lt_of_le (hone count) (le_length_trim key hasked)

end

/-! ## Marks at positions -/

variable {marks : List Score}

theorem lt_length_of_mem_indices {c : Criterion} {i : Nat} (h : i ∈ c.indices marks) : i < marks.length := by
  rw [indices_eq] at h
  exact List.mem_range.1 (c.pick_subset (markAt marks) _ h)

/-- The marks at the positions that a criterion picks, in the order in which it picks them. -/
theorem map_getElem?_indices (c : Criterion) (marks : List Score) :
    (c.indices marks).map (fun i => marks[i]?) = (c.pick id marks).map some := by
  have hmark : ∀ i ∈ c.indices marks, marks[i]? = some (markAt marks i) := fun i hi =>
    Guarded.getElem?_of_lt (lt_length_of_mem_indices hi)
  rw [List.map_congr_left hmark, ← Guarded.map_markAt_pick, ← indices_eq, List.map_map]
  rfl

/-- What is selected is what is picked, in another order where all are asked for. -/
theorem select_perm_pick (c : Criterion) (marks : List Score) : (c.select marks).Perm (c.pick id marks) := by
  cases c with
  | all count => exact sortBy_perm _ _
  | worst count | best count | dropExtremes | dropExtremesUntil count | trimToMedian count => exact .refl _

/-- **Positions are picked of marks that are there, and none of them twice.**  At least one is picked where there are
marks, and the marks that are selected are those at the positions that are picked. -/
theorem select_perm_places (c : Criterion) (marks : List Score) :
    (c.indices marks).Nodup ∧ (∀ i ∈ c.indices marks, i < marks.length) ∧ (marks ≠ [] → c.indices marks ≠ []) ∧
      ((c.select marks).map some).Perm ((c.indices marks).map fun i => marks[i]?) := by
  refine ⟨nodup_indices c marks, fun i => lt_length_of_mem_indices, fun hne => ?_, ?_⟩
  · have hpos := c.length_pick_pos id hne
    rw [← length_indices] at hpos
    exact List.length_pos_iff.1 hpos
  · rw [map_getElem?_indices]
    exact (c.select_perm_pick marks).map some

theorem select_perm_places_nan : ∃ (c : Criterion) (marks : List Score) (i : Nat),
    c.indices marks = [1, 0, 4] ∧ marks ≠ [] ∧ i ∈ c.indices marks ∧ i < marks.length ∧ (c.indices marks).Nodup ∧
      c.indices marks ≠ [] ∧ ((c.select marks).map some).Perm ((c.indices marks).map fun i => marks[i]?) := by
  let marks : List Score := [.infinity, -2, .negativeNaN, 3, .infinity, .nan]
  have hindices : (trimToMedian (some 3)).indices marks = [1, 0, 4] := by decide +kernel
  have hne : marks ≠ [] := List.cons_ne_nil _ _
  have hmem : 4 ∈ (trimToMedian (some 3)).indices marks := by
    rw [hindices]
    decide
  obtain ⟨hnodup, hlt, hsome, hselect⟩ := select_perm_places (.trimToMedian (some 3)) marks
  exact ⟨_, marks, 4, hindices, hne, hmem, hlt 4 hmem, hnodup, hsome hne, hselect⟩

end Criterion
end Scoresheet
