import Scoresheet.Proofs.Picking
/-!
# Ties

Sorting keeps equal marks in the order given, whichever way it goes.  So from the smallest mark on, the earlier of two
equal ones is the smaller one, and from the largest mark on it is the larger one: either way the earlier one is taken
first.  The worst `k` marks and the best of all the others are then together the marks that were given, but their
positions are apart, and are all the positions, exactly where the marks next to the cut are different
(`apart_iff_cut`).  Equal marks on both sides of the cut leave the first of them picked twice and the last of them not
at all.
-/
namespace Scoresheet
namespace Criterion

open Guarded (markAt)

/-! ## Taking from the front -/

section

variable {le : Nat → Nat → Bool} {places : List Nat} {i j k : Nat}

/-- What is no larger than a position that is taken, and earlier, is taken as well. -/
theorem mem_take_of_le (h : places.Pairwise (InTurn le (· < ·))) (hj : j ∈ places.take k) (hi : i ∈ places)
    (hij : i < j) (hle : le i j = true) : i ∈ places.take k := by
  rw [← List.take_append_drop k places] at h hi
  rcases List.mem_append.1 hi with htaken | hleft
  · exact htaken
  · have hturn := (List.pairwise_append.1 h).2.2 j hj i hleft
    have hlt := hturn.2 hle
    omega

/-- What is taken is what is read off what is taken, and the same of what is left. -/
theorem mem_take_map {α : Type} {f : Nat → α} {xs : List α} (h : places.map f = xs) :
    (∀ i ∈ places.take k, f i ∈ xs.take k) ∧ (∀ i ∈ places, i ∉ places.take k → f i ∈ xs.drop k) ∧
      ∀ x ∈ xs.take k, ∃ i ∈ places.take k, f i = x := by
  subst h
  rw [← List.map_take, ← List.map_drop]
  refine ⟨fun i hi => List.mem_map_of_mem hi, fun i hi hnot => List.mem_map_of_mem ?_, fun x hx => List.mem_map.1 hx⟩
  rw [← List.take_append_drop k places] at hi
  exact (List.mem_append.1 hi).resolve_left hnot

end

/-! ## Marks next to a cut -/

section

variable {marks sorted : List Score} {n k : Nat}

/-- **Sorted marks have none in common on the two sides of a cut** exactly where the marks next to it are different. -/
theorem disjoint_take_drop_iff (h : sorted.Pairwise fun a b => a.le b = true) (hk : 1 ≤ k) (hkn : k < sorted.length) :
    (sorted.take k).Disjoint (sorted.drop k) ↔ sorted[k - 1]? ≠ sorted[k]? := by
  have hsorted := List.pairwise_iff_getElem.1 h
  have hbefore : k - 1 < sorted.length := by omega
  rw [List.getElem?_eq_getElem hkn, List.getElem?_eq_getElem hbefore, Ne, Option.some.injEq]
  constructor
  · intro hdisjoint hsame
    refine hdisjoint (a := sorted[k]) ?_ ?_
    · rw [← hsame, List.mem_take_iff_getElem]
      exact ⟨k - 1, by omega, rfl⟩
    · rw [List.mem_drop_iff_getElem]
      exact ⟨0, by omega, by simp⟩
  · intro hne x hfront hback
    obtain ⟨i, hi, rfl⟩ := List.mem_take_iff_getElem.1 hfront
    obtain ⟨j, hj, hji⟩ := List.mem_drop_iff_getElem.1 hback
    have hfirst : sorted[i].le sorted[k - 1] = true := by
      rcases Nat.lt_or_eq_of_le (show i ≤ k - 1 by omega) with hlt | rfl
      · exact hsorted _ _ _ _ hlt
      · exact Score.le_iff.2 (Int.le_refl _)
    have hsecond : sorted[k].le sorted[i] = true := by
      rw [← hji]
      rcases Nat.eq_zero_or_pos j with rfl | hpos
      · exact Score.le_iff.2 (by simp)
      · exact hsorted _ _ _ _ (by omega)
    have hcut : sorted[k - 1].le sorted[k] = true := hsorted _ _ _ _ (by omega)
    exact hne (Score.le_antisymm hcut (Score.le_trans hsecond hfirst))

/-! ## The worst and the best -/

theorem descending_inTurn (marks : List Score) : (descending (markAt marks) (List.range marks.length)).Pairwise
    (InTurn (fun i j => (markAt marks j).le (markAt marks i)) (· < ·)) :=
  @sortBy_stable Nat (fun i j => (markAt marks j).le (markAt marks i)) _ (fun _ _ _ hab hbc => Score.le_trans hbc hab)
    (fun i j => Score.le_total (markAt marks j) (markAt marks i)) _ List.pairwise_lt_range

theorem map_markAt_ascending (h : Sorts marks sorted) :
    (ascending (markAt marks) (List.range marks.length)).map (markAt marks) = sorted := by
  rw [← ascending_eq h]
  conv_rhs => rw [← Guarded.map_markAt_range marks]
  rw [ascending_map]
  rfl

theorem map_markAt_descending (h : Sorts marks sorted) :
    (descending (markAt marks) (List.range marks.length)).map (markAt marks) = sorted.reverse := by
  rw [← descending_eq h]
  conv_rhs => rw [← Guarded.map_markAt_range marks]
  rw [descending_map]
  rfl

theorem indices_worst (count : Option Int) (marks : List Score) : indices (.worst count) marks =
    (ascending (markAt marks) (List.range marks.length)).take (countOf marks.length count) := by
  rw [indices_eq, pick_worst, List.length_range]

theorem indices_best (count : Option Int) (marks : List Score) : indices (.best count) marks =
    (descending (markAt marks) (List.range marks.length)).take (countOf marks.length count) := by
  rw [indices_eq, pick_best, List.length_range]

theorem countOf_natCast (hk : 1 ≤ k) (hkn : k ≤ n) : countOf n (some k) = k := by
  simp only [countOf, clampCount]
  omega

/-- **Of equal marks the earlier one is taken first**, by the worst ones and by the best ones. -/
theorem earlier_first {i j : Nat} (hij : i < j) (hsame : marks[i]? = marks[j]?) (count : Option Int) :
    (j ∈ indices (.worst count) marks → i ∈ indices (.worst count) marks) ∧
      (j ∈ indices (.best count) marks → i ∈ indices (.best count) marks) := by
  have hequal : markAt marks i = markAt marks j := by rw [markAt, markAt, hsame]
  have hle : (markAt marks i).le (markAt marks j) = true ∧ (markAt marks j).le (markAt marks i) = true := by
    rw [hequal, and_self]
    exact Score.le_iff.2 (Int.le_refl _)
  rw [indices_worst, indices_best]
  constructor
  · intro hj
    have hlt := List.mem_range.1 (mem_sortBy.1 (List.mem_of_mem_take hj))
    exact mem_take_of_le (standing_ascending marks).pairwise hj
      (mem_sortBy.2 (List.mem_range.2 (hij.trans hlt))) hij hle.1
  · intro hj
    have hlt := List.mem_range.1 (mem_sortBy.1 (List.mem_of_mem_take hj))
    exact mem_take_of_le (descending_inTurn marks) hj (mem_sortBy.2 (List.mem_range.2 (hij.trans hlt))) hij hle.2

/-- On which side of the cut the marks are that stand at the positions of the worst ones and at all others. -/
theorem markAt_worst (h : Sorts marks sorted) (hk : 1 ≤ k) (hkn : k ≤ marks.length) :
    let worst := indices (.worst (some k)) marks
    (∀ i ∈ worst, markAt marks i ∈ sorted.take k) ∧
      (∀ i < marks.length, i ∉ worst → markAt marks i ∈ sorted.drop k) ∧
      ∀ x ∈ sorted.take k, ∃ i ∈ worst, markAt marks i = x := by
  intro worst
  obtain ⟨htaken, hleft, hall⟩ := mem_take_map (k := k) (map_markAt_ascending h)
  have hworst : worst = (ascending (markAt marks) (List.range marks.length)).take k := by
    rw [← countOf_natCast hk hkn]
    exact indices_worst (some k) marks
  rw [hworst]
  exact ⟨htaken, fun i hi => hleft i (mem_sortBy.2 (List.mem_range.2 hi)), hall⟩

theorem markAt_best (h : Sorts marks sorted) (hk : k < marks.length) :
    let best := indices (.best (some (marks.length - k : Nat))) marks
    (∀ i ∈ best, markAt marks i ∈ sorted.drop k) ∧
      (∀ i < marks.length, i ∉ best → markAt marks i ∈ sorted.take k) ∧
      ∀ x ∈ sorted.drop k, ∃ i ∈ best, markAt marks i = x := by
  intro best
  obtain ⟨htaken, hleft, hall⟩ := mem_take_map (k := marks.length - k) (map_markAt_descending h)
  have hbest : best = (descending (markAt marks) (List.range marks.length)).take (marks.length - k) := by
    conv_rhs => rw [← countOf_natCast (n := marks.length) (show 1 ≤ marks.length - k by omega) (Nat.sub_le _ _)]
    exact indices_best (some (marks.length - k : Nat)) marks
  have hback : ∀ x, x ∈ sorted.reverse.take (marks.length - k) ↔ x ∈ sorted.drop k := fun x => by
    rw [List.take_reverse, List.mem_reverse, h.perm.length_eq, Nat.sub_sub_self (Nat.le_of_lt hk)]
  have hfront : ∀ x, x ∈ sorted.reverse.drop (marks.length - k) ↔ x ∈ sorted.take k := fun x => by
    rw [List.drop_reverse, List.mem_reverse, h.perm.length_eq, Nat.sub_sub_self (Nat.le_of_lt hk)]
  simp only [hback, hfront] at htaken hleft hall
  rw [hbest]
  exact ⟨htaken, fun i hi => hleft i (mem_sortBy.2 (List.mem_range.2 hi)), hall⟩

/-- **The worst and the best are apart, and leave nothing out, exactly where the marks next to the cut are different.** -/
theorem apart_iff_cut (h : Sorts marks sorted) (hk : 1 ≤ k) (hkn : k < marks.length) :
    let worst := indices (.worst (some k)) marks
    let best := indices (.best (some (marks.length - k : Nat))) marks
    (worst.Disjoint best ∧ ∀ i < marks.length, i ∈ worst ∨ i ∈ best) ↔ sorted[k - 1]? ≠ sorted[k]? := by
  intro worst best
  obtain ⟨hworst, hworst', hfront⟩ := markAt_worst h hk (Nat.le_of_lt hkn)
  obtain ⟨hbest, hbest', hback⟩ := markAt_best h hkn
  rw [← disjoint_take_drop_iff h.pairwise hk (h.perm.length_eq ▸ hkn)]
  constructor
  · rintro ⟨hapart, -⟩ x hx hx'
    -- a mark on both sides stands at a position of the worst and at one of the best, and the earlier of them is both
    obtain ⟨i, hi, rfl⟩ := hfront x hx
    obtain ⟨j, hj, hsame⟩ := hback _ hx'
    have hlt := lt_length_of_mem_indices hi
    have hlt' := lt_length_of_mem_indices hj
    have hmarks : marks[i]? = marks[j]? := by
      rw [Guarded.getElem?_of_lt hlt, Guarded.getElem?_of_lt hlt', hsame]
    rcases Nat.lt_trichotomy i j with hij | rfl | hji
    · exact hapart hi ((earlier_first hij hmarks _).2 hj)
    · exact hapart hi hj
    · exact hapart ((earlier_first hji hmarks.symm _).1 hi) hj
  · intro hcut
    refine ⟨fun i hi hi' => hcut (hworst i hi) (hbest i hi'), fun i hi => ?_⟩
    by_contra hneither
    rw [not_or] at hneither
    exact hcut (hbest' i hi hneither.2) (hworst' i hi hneither.1)

/-- The marks of the worst and of the best are together those that were given. -/
theorem select_worst_append_best (h : Sorts marks sorted) (hk : 1 ≤ k) (hkn : k < marks.length) :
    (select (.worst (some k)) marks ++ select (.best (some (marks.length - k : Nat))) marks).Perm marks := by
  rw [select_worst h, select_best h, countOf_natCast hk (Nat.le_of_lt hkn),
    countOf_natCast (by omega) (Nat.sub_le _ _), Nat.sub_sub_self (Nat.le_of_lt hkn)]
  have hback : sorted.extract k marks.length = sorted.drop k := by
    rw [List.extract_eq_take_drop, List.take_of_length_le (by rw [List.length_drop, h.perm.length_eq])]
  have hfront : sorted.extract 0 k = sorted.take k := by
    rw [List.extract_eq_take_drop, List.drop_zero, Nat.sub_zero]
  rw [hback, hfront]
  refine ((List.reverse_perm _).append_left _).trans ?_
  rw [List.take_append_drop]
  exact h.perm

/-- **How ties are broken.**  Every criterion but `best` and `all` goes by the standing, where the earlier of equal marks
is the smaller one; but of equal marks the worst and the best both take the earlier one first.  So the worst and the
best have all the marks that were given between them, but their positions are apart, and leave none out, exactly where
the marks next to the cut are different. -/
theorem ties_broken {places : List Nat} (h : Sorts marks sorted) (hplaces : Standing marks places)
    (hn : marks.length = n) (hk : 1 ≤ k) (hkn : k < n) :
    let worst := indices (.worst (some k)) marks
    let best := indices (.best (some (n - k : Nat))) marks
    (∀ c : Criterion, (∀ count, c ≠ .best count ∧ c ≠ .all count) → (c.indices marks).Sublist places) ∧
    (∀ i j : Nat, i < j → marks[i]? = marks[j]? → (j ∈ worst → i ∈ worst) ∧ (j ∈ best → i ∈ best)) ∧
    (select (.worst (some k)) marks ++ select (.best (some (n - k : Nat))) marks).Perm marks ∧
    ((worst.Disjoint best ∧ ∀ i < n, i ∈ worst ∨ i ∈ best) ↔ sorted[k - 1]? ≠ sorted[k]?) := by
  intro worst best
  subst hn
  refine ⟨fun c hc => ?_, fun i j hij hsame => ?_, select_worst_append_best h hk hkn, apart_iff_cut h hk hkn⟩
  · have hsublist := c.pick_sublist (markAt marks) (List.range marks.length)
    rw [indices_eq, ← ascending_places hplaces]
    cases c with
    | best count => exact absurd rfl (hc count).1
    | all count => exact absurd rfl (hc count).2
    | worst count | dropExtremes | dropExtremesUntil count | trimToMedian count => exact hsublist
  · exact ⟨(earlier_first hij hsame _).1, (earlier_first hij hsame _).2⟩

/-- The worst two of five and the best three of them have nothing in common, although two marks come twice. -/
theorem ties_broken_apart : ∃ (marks sorted : List Score) (places : List Nat), Sorts marks sorted ∧
    Standing marks places ∧ marks.length = 5 ∧ 1 ≤ 2 ∧ 2 < 5 ∧ sorted[1]? ≠ sorted[2]? ∧ places = [1, 3, 0, 2, 4] ∧
    (indices .dropExtremes marks).Sublist places ∧
    (select (.worst (some 2)) marks ++ select (.best (some 3)) marks).Perm marks ∧
    (2 ∈ indices (.best (some 3)) marks → 0 ∈ indices (.best (some 3)) marks) ∧
    (indices (.worst (some 2)) marks).Disjoint (indices (.best (some 3)) marks) ∧
    ∀ i < 5, i ∈ indices (.worst (some 2)) marks ∨ i ∈ indices (.best (some 3)) marks := by
  let marks : List Score := [2, 1, 2, 1, 3]
  let sorted : List Score := [1, 1, 2, 2, 3]
  have hsorts : Sorts marks sorted := ⟨by decide +kernel, by decide +kernel⟩
  have hstanding : Standing marks [1, 3, 0, 2, 4] := ⟨by decide +kernel, by unfold InTurn; decide +kernel⟩
  have hlength : marks.length = 5 := rfl
  have hcut : sorted[1]? ≠ sorted[2]? := by decide +kernel
  obtain ⟨hgoes, hfirst, hmarks, hapart⟩ := ties_broken hsorts hstanding hlength (k := 2) (by decide) (by decide)
  obtain ⟨hdisjoint, hall⟩ := hapart.2 hcut
  exact ⟨marks, sorted, _, hsorts, hstanding, hlength, by decide, by decide, hcut, rfl,
    hgoes .dropExtremes fun count => ⟨Criterion.noConfusion, Criterion.noConfusion⟩, hmarks,
    (hfirst 0 2 (by decide) rfl).2, hdisjoint, hall⟩

/-- **Equal marks on both sides of the cut are not told apart**: of two equal marks the first is both the worst and the
best. -/
theorem not_apart_of_ties : ¬ ∀ (marks : List Score) (k : Nat), 1 ≤ k → k < marks.length →
    (indices (.worst (some k)) marks).Disjoint (indices (.best (some (marks.length - k : Nat))) marks) ∧
      ∀ i < marks.length, i ∈ indices (.worst (some k)) marks ∨
        i ∈ indices (.best (some (marks.length - k : Nat))) marks := by
  intro hall
  have hworst : indices (.worst (some 1)) [(1 : Score), 1] = [0] := by decide +kernel
  have hbest : indices (.best (some 1)) [(1 : Score), 1] = [0] := by decide +kernel
  obtain ⟨hdisjoint, -⟩ := hall [1, 1] 1 (by decide) (by decide)
  refine hdisjoint (a := 0) ?_ ?_
  · show 0 ∈ indices (.worst (some 1)) [(1 : Score), 1]
    rw [hworst]
    exact List.mem_singleton_self 0
  · show 0 ∈ indices (.best (some 1)) [(1 : Score), 1]
    rw [hbest]
    exact List.mem_singleton_self 0

end

end Criterion
end Scoresheet
