import Scoresheet.Panel.Selection
import Scoresheet.Proofs.Ordering
/-!
# Selections are windows

The total order leaves one way to sort some marks (`ascending_eq`), and sorting them from the largest is that way read
backwards (`descending_eq`).  A criterion then cuts a window out of the sorted marks: the first ones, the last ones, or
ones in the middle, where dropping the largest and the smallest in turn comes to the same as a cut at both ends
(`dropInTurn_eq_take_drop`).  Which window it is depends on the number of marks and on the count alone
(`select_eq_window`).
-/
namespace Scoresheet

/-! ## Sorted marks -/

/-- The marks from the smallest to the largest in the total order. -/
structure Sorts (marks sorted : List Score) : Prop where
  perm : sorted.Perm marks
  pairwise : sorted.Pairwise fun a b => a.le b = true

namespace Criterion

variable {marks sorted : List Score}

theorem sorts_ascending (marks : List Score) : Sorts marks (ascending id marks) :=
  ⟨sortBy_perm _ marks, @sortBy_pairwise Score (fun a b => a.le b) (fun _ _ _ => Score.le_trans) Score.le_total marks⟩

/-- **There is one way to sort some marks.** -/
theorem ascending_eq (h : Sorts marks sorted) : ascending id marks = sorted := by
  have hperm : (ascending id marks).Perm sorted := (sorts_ascending marks).perm.trans h.perm.symm
  exact hperm.eq_of_pairwise (fun _ _ _ _ => Score.le_antisymm) (sorts_ascending marks).pairwise h.pairwise

/-- **From the largest to the smallest is the other way read backwards.** -/
theorem descending_eq (h : Sorts marks sorted) : descending id marks = sorted.reverse := by
  have hperm : (descending id marks).Perm sorted.reverse :=
    (sortBy_perm _ marks).trans (h.perm.symm.trans sorted.reverse_perm.symm)
  have hsorted : (descending id marks).Pairwise fun a b => b.le a = true :=
    @sortBy_pairwise Score (fun a b => b.le a) (fun _ _ _ hab hbc => Score.le_trans hbc hab)
      (fun a b => Score.le_total b a) marks
  exact hperm.eq_of_pairwise (fun _ _ _ _ hab hba => Score.le_antisymm hba hab) hsorted
    (List.pairwise_reverse.2 h.pairwise)

/-! ## Counts -/

/-- The count asked for, kept within one and `n`, or `n` where none is asked for. -/
def asked (n : Nat) : Option Int → Int
  | none => n
  | some count => max 1 (min count n)

theorem countOf_eq_asked (n : Nat) (count : Option Int) : (countOf n count : Int) = asked n count := by
  cases count with
  | none => rfl
  | some count =>
    simp only [countOf, clampCount, asked]
    omega

theorem eq_countOf {n k : Nat} {count : Option Int} (hk : (k : Int) = asked n count) : k = countOf n count := by
  rw [← countOf_eq_asked] at hk
  exact Int.ofNat_inj.1 hk

theorem countOf_le {n : Nat} (hn : 1 ≤ n) (count : Option Int) : countOf n count ≤ n := by
  cases count with
  | none => exact Nat.le_refl n
  | some count =>
    simp only [countOf, clampCount]
    omega

theorem one_le_countOf {n : Nat} (hn : 1 ≤ n) (count : Option Int) : 1 ≤ countOf n count := by
  cases count with
  | none => exact hn
  | some count => exact Nat.le_max_left _ _

/-- A count that is kept within the bounds stays as it is. -/
theorem clampCount_countOf {n : Nat} (hn : 1 ≤ n) (count : Option Int) :
    clampCount n (countOf n count) = countOf n count := by
  have hle := countOf_le hn count
  have hone := one_le_countOf hn count
  unfold clampCount
  omega

/-! ## Dropping in turn -/

/-- **The last and the first dropped in turn leave a window**, which starts one further on where the first one is
dropped first and an odd number of entries goes. -/
theorem dropInTurn_eq_take_drop {β : Type} (count : Nat) (last : Bool) (xs : List β) (h : count ≤ xs.length) :
    dropInTurn count last xs =
      (xs.drop ((xs.length - count + (!last).toNat) / 2)).take count := by
  fun_induction dropInTurn count last xs with
  | case1 xs hlt ih =>
    have hrest : count ≤ xs.dropLast.length := by
      rw [List.length_dropLast]
      omega
    rw [ih hrest, List.length_dropLast, List.dropLast_eq_take, List.drop_take, List.take_take]
    simp only [Bool.not_false, Bool.not_true, Bool.toNat_true, Bool.toNat_false]
    congr 1
    · omega
    · congr 1
      omega
  | case2 last xs hlt hlast ih =>
    have hrest : count ≤ xs.tail.length := by
      rw [List.length_tail]
      omega
    rw [Bool.not_eq_true] at hlast
    rw [ih hrest, List.length_tail, ← List.drop_one, List.drop_drop, hlast]
    simp only [Bool.not_false, Bool.not_true, Bool.toNat_true, Bool.toNat_false]
    congr 2
    omega
  | case3 last xs hlt =>
    have hlen : xs.length = count := by omega
    have hstart : (xs.length - count + (!last).toNat) / 2 = 0 := by
      cases last <;> simp [hlen]
    rw [hstart, List.drop_zero, ← hlen, List.take_length]

theorem length_dropInTurn {β : Type} {count : Nat} (last : Bool) {xs : List β} (h : count ≤ xs.length) :
    (dropInTurn count last xs).length = count := by
  rw [dropInTurn_eq_take_drop count last xs h, List.length_take, List.length_drop]
  cases last <;> simp <;> omega

/-! ## Windows -/

theorem select_worst (h : Sorts marks sorted) (count : Option Int) :
    select (.worst count) marks = sorted.extract 0 (countOf marks.length count) := by
  by_cases hempty : marks = []
  · subst hempty
    simp [select, pick, List.perm_nil.1 h.perm]
  · simp [select, pick, hempty, ascending_eq h]

theorem select_best (h : Sorts marks sorted) (count : Option Int) :
    select (.best count) marks =
      (sorted.extract (marks.length - countOf marks.length count) marks.length).reverse := by
  by_cases hempty : marks = []
  · subst hempty
    simp [select, pick, List.perm_nil.1 h.perm]
  · have hlen : sorted.length = marks.length := h.perm.length_eq
    rw [List.extract_eq_take_drop, List.take_of_length_le (by simp [hlen])]
    simp [select, pick, hempty, descending_eq h, List.take_reverse, hlen]

/-- The marks that `all` picks may come as they are, but they are sorted before they are handed out. -/
theorem select_all (h : Sorts marks sorted) (count : Option Int) :
    select (.all count) marks = select (.best count) marks := by
  by_cases hempty : marks = []
  · subst hempty
    rfl
  have hlen : sorted.length = marks.length := h.perm.length_eq
  by_cases hlt : countOf marks.length count < marks.length
  · -- the best ones, sorted once more
    have hblock : Sorts (sorted.reverse.take (countOf marks.length count))
        (sorted.drop (marks.length - countOf marks.length count)) := by
      rw [List.take_reverse, hlen]
      exact ⟨(List.reverse_perm _).symm, h.pairwise.sublist (List.drop_sublist _ _)⟩
    simp only [select, pick, List.isEmpty_iff, hempty, if_false, if_pos hlt, descending_eq h]
    rw [descending_eq hblock, List.take_reverse, hlen]
  · simp only [select, pick, List.isEmpty_iff, hempty, if_false, if_neg hlt, descending_eq h]
    rw [List.take_of_length_le (by rw [List.length_reverse]; omega)]

theorem select_dropExtremes (h : Sorts marks sorted) :
    select .dropExtremes marks = if 3 ≤ marks.length then sorted.extract 1 (marks.length - 1) else sorted := by
  have hlen : sorted.length = marks.length := h.perm.length_eq
  by_cases hempty : marks = []
  · subst hempty
    simp [select, pick, List.perm_nil.1 h.perm]
  by_cases hfew : marks.length ≤ 2
  · simp only [select, pick, List.isEmpty_iff, hempty, if_false, if_pos hfew, ascending_eq h]
    rw [if_neg (by omega)]
  · simp only [select, pick, List.isEmpty_iff, hempty, if_false, if_neg hfew, ascending_eq h]
    rw [if_pos (by omega), List.dropLast_eq_take, List.length_tail, hlen, ← List.drop_one, List.extract_eq_take_drop]

theorem select_dropExtremesUntil (h : Sorts marks sorted) (count : Int) :
    select (.dropExtremesUntil count) marks =
      (sorted.drop ((marks.length - clampCount marks.length count) / 2)).take (clampCount marks.length count) := by
  have hlen : sorted.length = marks.length := h.perm.length_eq
  by_cases hempty : marks = []
  · subst hempty
    simp [select, pick, List.perm_nil.1 h.perm]
  · have hcount : clampCount marks.length count ≤ sorted.length := by
      have hpos : 0 < marks.length := List.length_pos_iff.2 hempty
      rw [hlen]
      exact countOf_le hpos (some count)
    simp only [select, pick, List.isEmpty_iff, hempty, if_false, ascending_eq h]
    rw [dropInTurn_eq_take_drop _ _ _ hcount, hlen, Bool.not_true, Bool.toNat_false, Nat.add_zero]

/-- **Selections are windows of the sorted marks.**  With `k` of `n` marks asked for, the worst ones are the first `k`,
the best ones and all that are asked for the last `k` read backwards.  Dropping extremes leaves out the first and the
last of three marks or more, and dropping them until `k` are left cuts off the half of the others, rounded down, in
front. -/
theorem select_eq_window {n k : Nat} {count : Option Int} (h : Sorts marks sorted) (hn : marks.length = n)
    (hk : (k : Int) = asked n count) :
    select (.worst count) marks = sorted.extract 0 k ∧
    select (.best count) marks = (sorted.extract (n - k) n).reverse ∧
    select (.all count) marks = (sorted.extract (n - k) n).reverse ∧
    select .dropExtremes marks = (if 3 ≤ n then sorted.extract 1 (n - 1) else sorted) ∧
    ∀ c, count = some c → select (.dropExtremesUntil c) marks = sorted.extract ((n - k) / 2) ((n - k) / 2 + k) := by
  subst hn
  obtain rfl : k = countOf marks.length count := by
    rw [← countOf_eq_asked] at hk
    exact Int.ofNat_inj.1 hk
  refine ⟨select_worst h count, select_best h count, (select_all h count).trans (select_best h count),
    select_dropExtremes h, ?_⟩
  rintro c rfl
  rw [select_dropExtremesUntil h c, List.extract_eq_take_drop, Nat.add_sub_cancel_left]
  rfl

theorem select_eq_window_ties : ∃ marks sorted : List Score, Sorts marks sorted ∧ marks.length = 6 ∧
    ((3 : Nat) : Int) = asked 6 (some 3) ∧ select (.worst (some 3)) marks = [.negativeNaN, .negativeZero, 0] ∧
    select (.best (some 3)) marks = [.nan, 3, 3] ∧ select (.all (some 3)) marks = [.nan, 3, 3] ∧
    select .dropExtremes marks = [.negativeZero, 0, 3, 3] ∧
    select (.dropExtremesUntil 3) marks = [.negativeZero, 0, 3] := by
  let marks : List Score := [3, .nan, 0, .negativeNaN, .negativeZero, 3]
  let sorted : List Score := [.negativeNaN, .negativeZero, 0, 3, 3, .nan]
  have hsorts : Sorts marks sorted := ⟨by decide +kernel, by decide +kernel⟩
  have hasked : ((3 : Nat) : Int) = asked 6 (some 3) := rfl
  have hlength : marks.length = 6 := rfl
  obtain ⟨hworst, hbest, hall, hdrop, huntil⟩ := select_eq_window hsorts hlength hasked
  exact ⟨marks, sorted, hsorts, hlength, hasked, hworst, hbest, hall, hdrop, huntil 3 rfl⟩

end Criterion
end Scoresheet
