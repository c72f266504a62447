import Mathlib.Data.List.Forall2
import Scoresheet.Proofs.Windows
/-!
# Raised marks

Raising some marks of a panel can change which judges are picked, but it lowers no mark that a criterion hands out
(`Criterion.select_raised`).  Each place of the sorted marks is raised or stays (`ascending_raised`), because putting a
higher mark into higher ones keeps the order place by place (`insertBy_raised`); and a window of the sorted marks lies
at the same places, whatever the marks are.  Trimming to the median is left out: it drops the mark at either end,
depending on how far away they are.
-/
namespace Scoresheet

variable {a b : Score} {marks raised : List Score}

/-- As many marks, none of them lower than the one in its place. -/
def Raised (marks raised : List Score) : Prop := List.Forall₂ (fun a b => a.le b = true) marks raised

/-- A mark that is at most the first of sorted marks goes in front of them. -/
theorem insertBy_of_le (h : (a :: marks).Pairwise fun a b => a.le b = true) :
    insertBy Score.le a marks = a :: marks := by
  cases marks with
  | nil => rfl
  | cons x xs => rw [insertBy, if_pos (List.rel_of_pairwise_cons h List.mem_cons_self)]

/-- **A higher mark put into higher ones**: the order is kept place by place, wherever the two marks come to stand. -/
theorem insertBy_raised (hab : a.le b = true) (h : Raised marks raised)
    (hmarks : marks.Pairwise fun a b => a.le b = true) (hraised : raised.Pairwise fun a b => a.le b = true) :
    Raised (insertBy Score.le a marks) (insertBy Score.le b raised) := by
  induction h generalizing a b with
  | nil => exact .cons hab .nil
  | @cons x y xs ys hxy hrest ih =>
    have ih' {a b : Score} (hab : a.le b = true) := ih hab hmarks.of_cons hraised.of_cons
    by_cases ha : a.le x = true
    · by_cases hb : b.le y = true
      · rw [insertBy, insertBy, if_pos ha, if_pos hb]
        exact .cons hab (.cons hxy hrest)
      · -- the higher mark goes past `y`, so the rest below is that of `x` put back in front
        have hyb : y.le b = true := by simpa [hb] using Score.le_total y b
        have hshift := ih' (Score.le_trans hxy hyb)
        rw [insertBy_of_le hmarks] at hshift
        rw [insertBy, insertBy, if_pos ha, if_neg hb]
        exact .cons (Score.le_trans ha hxy) hshift
    · have hxa : x.le a = true := by simpa [ha] using Score.le_total x a
      by_cases hb : b.le y = true
      · -- the lower mark goes past `x`, so the rest above is that of `y` put back in front
        have hshift := ih' (Score.le_trans hab hb)
        rw [insertBy_of_le hraised] at hshift
        rw [insertBy, insertBy, if_neg ha, if_pos hb]
        exact .cons (Score.le_trans hxa hab) hshift
      · rw [insertBy, insertBy, if_neg ha, if_neg hb]
        exact .cons hxy (ih' hab)

namespace Criterion

/-- **Each place of the sorted marks is raised or stays.** -/
theorem ascending_raised (h : Raised marks raised) : Raised (ascending id marks) (ascending id raised) := by
  induction h with
  | nil => exact .nil
  | @cons a b marks raised hab _ ih =>
    exact insertBy_raised hab ih (sorts_ascending marks).pairwise (sorts_ascending raised).pairwise

/-- **Raising marks lowers no mark that is selected**: as many are selected, and none is lower than the one selected in
its place before. -/
theorem select_raised {c : Criterion} (hc : ∀ count, c ≠ .trimToMedian count) (h : Raised marks raised) :
    Raised (c.select marks) (c.select raised) := by
  have hlen : marks.length = raised.length := h.length_eq
  have hsorted : Raised (ascending id marks) (ascending id raised) := ascending_raised h
  have hmarks := sorts_ascending marks
  have hraised := sorts_ascending raised
  have hwindow (start stop : Nat) :
      Raised ((ascending id marks).extract start stop) ((ascending id raised).extract start stop) := by
    rw [List.extract_eq_take_drop, List.extract_eq_take_drop]
    exact List.forall₂_take _ (List.forall₂_drop _ hsorted)
  cases c with
  | worst count =>
    rw [select_worst hmarks, select_worst hraised, hlen]
    exact hwindow _ _
  | best count =>
    rw [select_best hmarks, select_best hraised, hlen]
    exact List.forall₂_reverse_iff.2 (hwindow _ _)
  | all count =>
    rw [select_all hmarks, select_all hraised, select_best hmarks, select_best hraised, hlen]
    exact List.forall₂_reverse_iff.2 (hwindow _ _)
  | dropExtremes =>
    rw [select_dropExtremes hmarks, select_dropExtremes hraised, hlen]
    split
    · exact hwindow _ _
    · exact hsorted
  | dropExtremesUntil count =>
    rw [select_dropExtremesUntil hmarks, select_dropExtremesUntil hraised, hlen]
    exact List.forall₂_take _ (List.forall₂_drop _ hsorted)
  | trimToMedian count => exact absurd rfl (hc count)

theorem select_raised_last : ∃ marks raised : List Score, Raised marks raised ∧
    (∀ count, Criterion.best (some 2) ≠ .trimToMedian count) ∧ select (.best (some 2)) marks = [3, 0] ∧
    select (.best (some 2)) raised = [.nan, 3] ∧ Raised [3, 0] [.nan, 3] := by
  let marks : List Score := [3, .negativeNaN, 0, .negativeZero]
  let raised : List Score := [3, .negativeNaN, 0, .nan]
  have hraised : Raised marks raised := by
    unfold Raised
    decide +kernel
  have hc : ∀ count, Criterion.best (some 2) ≠ .trimToMedian count := fun count h => by cases h
  have hbefore : select (.best (some 2)) marks = [3, 0] := by decide +kernel
  have hafter : select (.best (some 2)) raised = [.nan, 3] := by decide +kernel
  have hselect := select_raised hc hraised
  rw [hbefore, hafter] at hselect
  exact ⟨marks, raised, hraised, hc, hbefore, hafter, hselect⟩

end Criterion
end Scoresheet
