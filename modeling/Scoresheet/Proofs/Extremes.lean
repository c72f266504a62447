import Mathlib.Tactic.IntervalCases
import Mathlib.Tactic.Linarith
import Scoresheet.Proofs.Exact
import Scoresheet.Proofs.Trimming
/-!
# Trimming drops extremes

Trimming to the median drops one mark of a block by its distance from the median.  Where distances are not rounded, the
mark that goes is the smallest or the largest of the block (`Farthest.extreme`): whatever lies on one side of a point, the
end on that side is at least as far away.  So on finite scores with exact arithmetic trimming to the median drops
extremes only, and where an even number of marks goes it picks the same positions as dropping the largest and the smallest
in turn (`Criterion.indices_trimToMedian`).
-/
namespace Scoresheet

open Guarded (markAt)

/-! ## The end that is farther away -/

/-- Of the numbers at the places up to `k`, the one at place `p` is farthest from a point, and of several it is the
last. -/
structure Farthest (x : Nat → ℚ) (k : Nat) (point : ℚ) (p : Nat) : Prop where
  place : p ≤ k
  farthest : ∀ q ≤ k, |x q - point| ≤ |x p - point|
  last : ∀ q ≤ k, p < q → |x q - point| < |x p - point|

section

variable {x : Nat → ℚ} {k p : Nat} {point : ℚ}

/-- The last of increasing numbers is the farthest one as soon as it is as far away as the farthest one is. -/
theorem Farthest.eq_last (h : Farthest x k point p) (hlast : |x p - point| ≤ |x k - point|) : p = k := by
  by_contra hne
  exact absurd hlast (not_le.2 (h.last k le_rfl (lt_of_le_of_ne h.place hne)))

/-- **The farthest of increasing numbers is the smallest or the largest one**, and the largest where the two are equally
far away. -/
theorem Farthest.extreme (h : Farthest x k point p) (hx : ∀ i j, i ≤ j → j ≤ k → x i ≤ x j) :
    (x p = x 0 ∨ x p = x k) ∧ (|x 0 - point| = |x k - point| → x p = x k) := by
  have hfirst : x 0 ≤ x p := hx 0 p (Nat.zero_le p) h.place
  have hlast : x p ≤ x k := hx p k h.place le_rfl
  by_cases hside : point ≤ x p
  · -- at or above the point, the largest is as far away as any
    have hk : p = k := by
      refine h.eq_last ?_
      rw [abs_of_nonneg (by linarith), abs_of_nonneg (by linarith)]
      linarith
    rw [hk]
    exact ⟨.inr rfl, fun _ => rfl⟩
  · -- below the point, the smallest is as far away as any
    have hzero : x p = x 0 := by
      have hfar := h.farthest 0 (Nat.zero_le k)
      rw [abs_of_neg (by linarith), abs_of_neg (by linarith)] at hfar
      linarith
    refine ⟨.inl hzero, fun hends => ?_⟩
    rw [h.eq_last (by rw [hzero, hends])]

end

namespace Criterion

/-! ## Exact distances -/

theorem value_le_foldl_larger (d : Exact) (ds : List Exact) :
    ∀ e ∈ d :: ds, e.value ≤ (ds.foldl Mark.larger d).value := by
  induction ds generalizing d with
  | nil => simp
  | cons e ds ih =>
    have htop := ih (Mark.larger d e) _ List.mem_cons_self
    rw [Exact.value_larger] at htop
    intro y hy
    rcases List.mem_cons.1 hy with rfl | hy
    · exact (le_max_left _ _).trans htop
    · rcases List.mem_cons.1 hy with rfl | hy
      · exact (le_max_right _ _).trans htop
      · exact ih (Mark.larger d e) y (List.mem_cons_of_mem _ hy)

/-- **Of exact distances there is a last one that is the largest.** -/
theorem exists_lastLargest? {ds : List Exact} (hne : ds ≠ []) : ∃ p, lastLargest? ds = some p ∧
    ∃ hp : p < ds.length, (∀ q (hq : q < ds.length), ds[q].value ≤ ds[p].value) ∧
      ∀ q (hq : q < ds.length), p < q → ds[q].value < ds[p].value := by
  obtain ⟨d, ds, rfl⟩ := List.exists_cons_of_ne_nil hne
  have hbound := value_le_foldl_larger d ds
  cases hlast : lastLargest? (d :: ds) with
  | none =>
    have hsame := lastLargest?_eq_none_iff.1 hlast _ rfl _ (largest?_mem Exact.larger_eq_or rfl)
    exact absurd rfl (of_decide_eq_false hsame)
  | some p =>
    obtain ⟨top, htop, hp, hsame, hbehind⟩ := same_of_lastLargest? hlast
    obtain rfl := Option.some.inj htop
    have hvalue : (d :: ds)[p].value = (ds.foldl Mark.larger d).value := of_decide_eq_true hsame
    refine ⟨p, rfl, hp, fun q hq => ?_, fun q hq hpq => ?_⟩
    · rw [hvalue]
      exact hbound _ (List.getElem_mem hq)
    · rw [hvalue]
      exact lt_of_le_of_ne (hbound _ (List.getElem_mem hq)) (of_decide_eq_false (hbehind q hq hpq))

section

variable {β : Type} {key : β → Exact} {block : List β} {x : Nat → ℚ} {k : Nat}

/-- The median of a block is the middle between the two marks in the middle, which may be the same one. -/
theorem exists_middle? (hlength : block.length = k + 1)
    (hx : ∀ i (hi : i < block.length), x i = (key block[i]).value) :
    ∃ m, middle? key block = some m ∧ m.value = (x (k / 2) + x ((k + 1) / 2)) / 2 := by
  have hhalf : (k + 1) / 2 < block.length := by omega
  have hbefore : k / 2 < block.length := by omega
  unfold middle?
  dsimp only
  rw [hlength]
  split
  · have hsame : k / 2 = (k + 1) / 2 := by omega
    rw [List.getElem?_eq_getElem hhalf]
    refine ⟨_, rfl, ?_⟩
    rw [hsame, hx _ hhalf]
    ring
  · have hsame : (k + 1) / 2 - 1 = k / 2 := by omega
    rw [hsame, List.getElem?_eq_getElem hhalf, List.getElem?_eq_getElem hbefore]
    refine ⟨_, rfl, ?_⟩
    rw [hx _ hhalf, hx _ hbefore]
    rfl

/-- **The mark that a block loses is the last one farthest from its median.** -/
theorem exists_dropFarthest (hlength : block.length = k + 1)
    (hx : ∀ i (hi : i < block.length), x i = (key block[i]).value) :
    ∃ p, dropFarthest key block = block.eraseIdx p ∧ Farthest x k ((x (k / 2) + x ((k + 1) / 2)) / 2) p := by
  obtain ⟨m, hm, hmedian⟩ := exists_middle? hlength hx
  have hne : (block.map fun b => Mark.distance (key b) m) ≠ [] := by
    rw [ne_eq, List.map_eq_nil_iff]
    exact List.length_pos_iff.1 (by omega)
  obtain ⟨p, hlast, hp, hbound, hbehind⟩ := exists_lastLargest? hne
  have hdistance : ∀ q (hq : q < (block.map fun b => Mark.distance (key b) m).length),
      (block.map fun b => Mark.distance (key b) m)[q].value = |x q - m.value| := by
    intro q hq
    rw [List.length_map] at hq
    rw [List.getElem_map, hx q hq]
    rfl
  refine ⟨p, by rw [dropFarthest, hm]; dsimp only; rw [hlast], ?_⟩
  rw [← hmedian]
  have hsize : (block.map fun b => Mark.distance (key b) m).length = k + 1 := by rw [List.length_map, hlength]
  refine ⟨by omega, fun q hq => ?_, fun q hq hpq => ?_⟩
  · rw [← hdistance q (by omega), ← hdistance p hp]
    exact hbound q (by omega)
  · rw [← hdistance q (by omega), ← hdistance p hp]
    exact hbehind q (by omega) hpq

end

/-! ## Positions of finite scores -/

/-- The number at a place of some positions. -/
def valueAt (marks : List Score) (places : List Nat) (i : Nat) : ℚ := (markAt marks (places[i]?.getD 0)).exact.value

section

variable {marks : List Score} {places : List Nat} {n k : Nat} {count : Option Int}

theorem isFinite_markAt (hfinite : ∀ a ∈ marks, a.isFinite = true) {i : Nat} (hi : i ∈ List.range marks.length) :
    (markAt marks i).isFinite = true := by
  rw [List.mem_range] at hi
  rw [markAt, List.getElem?_eq_getElem hi]
  exact hfinite _ (List.getElem_mem hi)

theorem ascending_exact (hfinite : ∀ a ∈ marks, a.isFinite = true) (h : Standing marks places) :
    ascending (Score.exact ∘ markAt marks) (List.range marks.length) = places := by
  rw [← ascending_places h]
  exact sortBy_congr fun i hi j hj => Score.exact_le (isFinite_markAt hfinite hi) (isFinite_markAt hfinite hj)

/-- Along a part of a standing of finite scores the numbers increase. -/
theorem valueAt_le {block : List Nat} (hfinite : ∀ a ∈ marks, a.isFinite = true) (h : Standing marks places)
    (hblock : block.Sublist places) {i j : Nat} (hij : i ≤ j) (hj : j < block.length) :
    valueAt marks block i ≤ valueAt marks block j := by
  rcases hij.eq_or_lt with rfl | hlt
  · exact le_rfl
  · have hinturn := List.pairwise_iff_getElem.1 (h.pairwise.sublist hblock) i j (by omega) hj hlt
    have hmark : ∀ p ∈ block, (markAt marks p).isFinite = true := by
      intro p hp
      exact isFinite_markAt hfinite (h.perm.mem_iff.1 (hblock.subset hp))
    rw [valueAt, valueAt, List.getElem?_eq_getElem (by omega), List.getElem?_eq_getElem hj]
    refine Exact.value_le_of_le ?_
    rw [Option.getD_some, Option.getD_some, Score.exact_le (hmark _ (List.getElem_mem _)) (hmark _ (List.getElem_mem _))]
    exact hinturn.1

/-- **Trimming finite scores to the median drops extremes.**  Where an even number of scores goes, the positions are those
that dropping the largest and the smallest in turn leaves.  Where an odd number goes, they are those of a block in the
middle of the sorted scores that is one wider than asked for, without the one farthest from the block's median; where
several are, the last of them.  Its score is the smallest or the largest of the block, the largest where both are equally
far away. -/
theorem indices_trimToMedian (hfinite : ∀ a ∈ marks, a.isFinite = true) (h : Standing marks places)
    (hn : marks.length = n) (hpos : 1 ≤ n) (hk : (k : Int) = asked n count) :
    ((n - k) % 2 = 0 →
      indices (.trimToMedian count) marks = indices (.dropExtremesUntil k) marks ∧
      indices (.trimToMedian count) (marks.map Score.exact) = indices (.dropExtremesUntil k) marks) ∧
    ((n - k) % 2 = 1 →
      let block := places.extract ((n - k) / 2) ((n - k) / 2 + (k + 1))
      let x := valueAt marks block
      let median := (x (k / 2) + x ((k + 1) / 2)) / 2
      block.length = k + 1 ∧
      ∃ p, indices (.trimToMedian count) (marks.map Score.exact) = block.eraseIdx p ∧ Farthest x k median p ∧
        (x p = x 0 ∨ x p = x k) ∧ (|x 0 - median| = |x k - median| → x p = x k)) := by
  subst hn
  obtain rfl := eq_countOf hk
  have hle := countOf_le hpos count
  have hlength : places.length = marks.length := by rw [h.perm.length_eq, List.length_range]
  have hfloat : indices (.trimToMedian count) marks = trim (markAt marks) (countOf marks.length count) places := by
    simp [indices_eq, pick, List.length_pos_iff.1 hpos, ascending_places h]
  have hexact : indices (.trimToMedian count) (marks.map Score.exact) =
      trim (Score.exact ∘ markAt marks) (countOf marks.length count) places := by
    simp [indices_map, pick, List.length_pos_iff.1 hpos, ascending_exact hfinite h]
  refine ⟨fun heven => ?_, fun hodd => ?_⟩
  · have huntil : indices (.dropExtremesUntil (countOf marks.length count)) marks =
        dropInTurn (countOf marks.length count) true places := by
      simp [indices_eq, pick, List.length_pos_iff.1 hpos, ascending_places h, clampCount_countOf hpos]
    have heven' : (places.length - countOf marks.length count) % 2 = 0 := by omega
    rw [hfloat, hexact, huntil]
    exact ⟨trim_of_even _ (by omega) heven', trim_of_even _ (by omega) heven'⟩
  · intro block x median
    obtain ⟨hsublist, hsize⟩ : block.Sublist places ∧ block.length = _ := extract_middle hlength (by omega)
    have hx : ∀ i (hi : i < block.length), x i = ((Score.exact ∘ markAt marks) block[i]).value := by
      intro i hi
      show (markAt marks (block[i]?.getD 0)).exact.value = _
      rw [List.getElem?_eq_getElem hi]
      rfl
    obtain ⟨p, hdrop, hfarthest⟩ := exists_dropFarthest hsize hx
    have hincreasing : ∀ i j, i ≤ j → j ≤ countOf marks.length count → x i ≤ x j := by
      intro i j hij hj
      exact valueAt_le hfinite h hsublist hij (by omega)
    obtain ⟨hend, hties⟩ := hfarthest.extreme hincreasing
    refine ⟨hsize, p, ?_, hfarthest, hend, hties⟩
    rw [hexact, ← hdrop, trim_of_odd _ (by omega) (by omega), hlength]

/-- Of 4, 5, 6 and 7 both ends are equally far away from the median, and 7 goes. -/
theorem indices_trimToMedian_six : ∃ (marks : List Score) (places : List Nat),
    (∀ a ∈ marks, a.isFinite = true) ∧ Standing marks places ∧ marks.length = 6 ∧ ((3 : Nat) : Int) = asked 6 (some 3) ∧
    places.extract 1 5 = [1, 4, 3, 5] ∧ valueAt marks [1, 4, 3, 5] 3 = 7 ∧
    indices (.trimToMedian (some 3)) (marks.map Score.exact) = [1, 4, 3] := by
  let marks : List Score := [9, 4, 1, 6, 5, 7]
  let places : List Nat := [2, 1, 4, 3, 5, 0]
  have hfinite : ∀ a ∈ marks, a.isFinite = true := by decide +kernel
  have hstanding : Standing marks places := ⟨by decide +kernel, by unfold InTurn; decide +kernel⟩
  have hasked : ((3 : Nat) : Int) = asked 6 (some 3) := rfl
  have hlength : marks.length = 6 := rfl
  have h0 : valueAt marks [1, 4, 3, 5] 0 = 4 := by decide +kernel
  have h1 : valueAt marks [1, 4, 3, 5] 1 = 5 := by decide +kernel
  have h2 : valueAt marks [1, 4, 3, 5] 2 = 6 := by decide +kernel
  have h3 : valueAt marks [1, 4, 3, 5] 3 = 7 := by decide +kernel
  obtain ⟨-, p, hindices, hfarthest, -, hties⟩ :=
    (indices_trimToMedian hfinite hstanding hlength (by decide) hasked).2 (by decide)
  have hp : valueAt marks [1, 4, 3, 5] p = 7 := by
    refine (hties ?_).trans h3
    show |valueAt marks [1, 4, 3, 5] 0 - (valueAt marks [1, 4, 3, 5] 1 + valueAt marks [1, 4, 3, 5] 2) / 2| =
      |valueAt marks [1, 4, 3, 5] 3 - (valueAt marks [1, 4, 3, 5] 1 + valueAt marks [1, 4, 3, 5] 2) / 2|
    rw [h0, h1, h2, h3]
    norm_num
  have hthree : p = 3 := by
    have hle : p ≤ 3 := hfarthest.place
    interval_cases p
    · norm_num [h0] at hp
    · norm_num [h1] at hp
    · norm_num [h2] at hp
    · rfl
  subst hthree
  exact ⟨marks, places, hfinite, hstanding, hlength, hasked, rfl, h3, hindices⟩

end

end Criterion
end Scoresheet
