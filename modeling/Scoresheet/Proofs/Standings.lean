import Mathlib.Data.List.Perm.Subperm
import Scoresheet.Proofs.Positions
import Scoresheet.Proofs.Windows
/-!
# Standings

The positions of a panel's marks from the smallest mark to the largest, of equal marks the earlier one first.  There is
one such standing (`Criterion.ascending_places`), because the sort is stable (`sortBy_stable`): what compares equal
stays in turn.  A criterion picks positions by the marks that stand at them (`Criterion.indices_map`), each position
once (`Criterion.nodup_indices`).
-/
namespace Scoresheet

open Guarded (markAt)

/-! ## Stability -/

section

variable {α : Type} {le : α → α → Bool} {R : α → α → Prop}

/-- In order, and where two entries compare equal, related as they were before. -/
def InTurn (le : α → α → Bool) (R : α → α → Prop) (a b : α) : Prop := le a b = true ∧ (le b a = true → R a b)

theorem insertBy_stable (trans : ∀ a b c, le a b → le b c → le a c) (total : ∀ a b, le a b || le b a) {x : α} :
    ∀ {ys : List α}, (∀ y ∈ ys, R x y) → ys.Pairwise (InTurn le R) → (insertBy le x ys).Pairwise (InTurn le R)
  | [], _, _ => by simp [insertBy]
  | y :: ys, hx, h => by
    obtain ⟨hy, hys⟩ := List.pairwise_cons.1 h
    unfold insertBy
    split
    · rename_i hxy
      refine List.pairwise_cons.2 ⟨fun z hz => ⟨?_, fun _ => hx z hz⟩, h⟩
      rcases List.mem_cons.1 hz with rfl | hz
      · exact hxy
      · exact trans x y z hxy (hy z hz).1
    · rename_i hxy
      have hrest := insertBy_stable trans total (List.forall_mem_cons.1 hx).2 hys
      refine List.pairwise_cons.2 ⟨fun z hz => ?_, hrest⟩
      rcases List.mem_cons.1 ((insertBy_perm le x ys).mem_iff.1 hz) with rfl | hz
      · have hyx : le y z = true := by simpa [hxy] using total y z
        exact ⟨hyx, fun hzy => absurd hzy hxy⟩
      · exact hy z hz

/-- **Entries that compare equal stay in turn.** -/
theorem sortBy_stable (trans : ∀ a b c, le a b → le b c → le a c) (total : ∀ a b, le a b || le b a) {xs : List α}
    (h : xs.Pairwise R) : (sortBy le xs).Pairwise (InTurn le R) := by
  induction xs with
  | nil => exact .nil
  | cons x xs ih =>
    obtain ⟨hx, hxs⟩ := List.pairwise_cons.1 h
    exact insertBy_stable trans total (fun y hy => hx y (mem_sortBy.1 hy)) (ih hxs)

/-- Sorting sees the order of the given entries alone. -/
theorem sortBy_congr {le' : α → α → Bool} {xs : List α} (h : ∀ a ∈ xs, ∀ b ∈ xs, le a b = le' a b) :
    sortBy le xs = sortBy le' xs := by
  have hsome : ∀ a ∈ xs, ∀ b ∈ xs, some (le a b) = some (le' a b) := fun a ha b hb => congrArg some (h a ha b hb)
  exact Option.some.inj ((Guarded.sortBy_eq fun _ _ _ _ => rfl).symm.trans (Guarded.sortBy_eq hsome))

end

/-! ## Positions in order -/

/-- The positions of marks from the smallest to the largest mark, of equal marks the earlier one first. -/
structure Standing (marks : List Score) (places : List Nat) : Prop where
  perm : places.Perm (List.range marks.length)
  pairwise : places.Pairwise (InTurn (fun i j => (markAt marks i).le (markAt marks j)) (· < ·))

namespace Criterion

variable {marks : List Score} {places : List Nat}

theorem standing_ascending (marks : List Score) :
    Standing marks (ascending (markAt marks) (List.range marks.length)) := by
  refine ⟨sortBy_perm _ _, ?_⟩
  exact @sortBy_stable Nat (fun i j => (markAt marks i).le (markAt marks j)) _ (fun _ _ _ => Score.le_trans)
    (fun _ _ => Score.le_total _ _) _ List.pairwise_lt_range

/-- **There is one standing of some marks.** -/
theorem ascending_places (h : Standing marks places) :
    ascending (markAt marks) (List.range marks.length) = places := by
  have hascending := standing_ascending marks
  refine (hascending.perm.trans h.perm.symm).eq_of_pairwise (fun i j _ _ hij hji => ?_) hascending.pairwise h.pairwise
  -- no two positions stand before each other
  have hlt := hij.2 hji.1
  have hgt := hji.2 hij.1
  omega

/-! ## Positions that are picked -/

section

variable {α β : Type} [Mark α]

/-- **Positions are picked by the marks that stand at them**, whatever is read off the marks. -/
theorem indices_map (c : Criterion) (f : Score → α) (marks : List Score) :
    c.indices (marks.map f) = c.pick (f ∘ markAt marks) (List.range marks.length) := by
  have hzip : (marks.map f).zipIdx = (List.range marks.length).map fun i => (f (markAt marks i), i) := by
    refine List.ext_getElem (by simp) fun i hi hi' => ?_
    rw [List.length_map, List.length_range] at hi'
    simp [markAt, hi']
  rw [indices, hzip, pick_map, List.map_map]
  exact List.map_id _

theorem indices_eq (c : Criterion) (marks : List Score) :
    c.indices marks = c.pick (markAt marks) (List.range marks.length) := by
  have h := c.indices_map id marks
  rwa [List.map_id] at h

theorem pick_subperm (key : β → α) (c : Criterion) (xs : List β) : (c.pick key xs).Subperm xs :=
  (c.pick_sublist key xs).subperm.trans (c.arrangement_perm key xs).subperm

/-- **No position is picked twice.** -/
theorem nodup_indices (c : Criterion) (marks : List Score) : (c.indices marks).Nodup := by
  rw [indices_eq]
  obtain ⟨places, hperm, hsublist⟩ := pick_subperm (markAt marks) c (List.range marks.length)
  exact hperm.nodup_iff.1 (hsublist.nodup List.nodup_range)

end

end Criterion
end Scoresheet
