import Scoresheet.Panel.Aggregate
import Scoresheet.Proofs.Canonical
import Scoresheet.Proofs.Finite
import Scoresheet.Proofs.Standings
/-!
# Trimming to the median

Dropping the smallest and the largest mark together leaves a window in the middle of the sorted marks
(`dropPairs_eq_take_drop`).  Where an even number of marks goes, that is the window that dropping them in turn leaves
(`trim_of_even`).  Where an odd number goes, the window is one too wide, and the mark farthest from its median goes as
well (`trim_of_odd`).

Such a mark is found as soon as one of them is some number away from the median (`lastLargest?_eq_none_iff`).  Infinite
marks and NaNs may leave none, and then one mark too many is selected (`length_indices_trimToMedian`).
-/
namespace Scoresheet

namespace Score

variable {a b : Score}

theorem sameNumber_iff_order : a.sameNumber b = true ↔ a.order b = some .eq := by
  show (a.order b == some .eq) = true ↔ _
  exact beq_iff_eq

theorem isNaN_of_sameNumber (h : a.sameNumber b = true) : a.isNaN = false ∧ b.isNaN = false := by
  have hne : ¬ (a.isNaN = true ∨ b.isNaN = true) := by
    rw [← order_eq_none_iff, sameNumber_iff_order.1 h]
    simp
  simpa using hne

/-- A number is the same as itself. -/
theorem sameNumber_self (h : a.isNaN = false) : a.sameNumber a = true := by
  rw [sameNumber_iff_order]
  cases ho : a.order a with
  | none =>
    rcases order_eq_none_iff.1 ho with hnan | hnan <;> simp [hnan] at h
  | some o =>
    have hswap := order_swap a a
    rw [ho] at hswap
    cases o with
    | eq => rfl
    | lt => cases hswap
    | gt => cases hswap

theorem isNaN_max (a b : Score) : (Score.max a b).isNaN = (a.isNaN && b.isNaN) := by
  unfold Score.max
  split
  · rename_i ha
    rw [ha, Bool.true_and]
  · rename_i ha
    rw [Bool.not_eq_true] at ha
    split
    · rename_i hlt
      rw [(isNaN_of_lt hlt).2, ha, Bool.false_and]
    · rw [ha, Bool.false_and]

theorem isNaN_foldl_max (d : Score) (ds : List Score) :
    (ds.foldl Score.max d).isNaN = (d :: ds).all (·.isNaN) := by
  induction ds generalizing d with
  | nil => simp
  | cons e ds ih => rw [List.foldl_cons, ih, List.all_cons, List.all_cons, List.all_cons, isNaN_max, Bool.and_assoc]

end Score

namespace Criterion

/-! ## Blocks -/

section

variable {α β : Type} {count : Nat} {xs : List β}

/-- **Dropping pairs leaves a window in the middle**, one wider than asked for where an odd number of entries goes. -/
theorem dropPairs_eq_take_drop (h : count ≤ xs.length) :
    dropPairs count xs = (xs.drop ((xs.length - count) / 2)).take (count + (xs.length - count) % 2) := by
  fun_induction dropPairs count xs with
  | case1 xs hlt ih =>
    have hlength : xs.tail.dropLast.length = xs.length - 2 := by
      rw [List.length_dropLast, List.length_tail]
      omega
    rw [ih (by omega), hlength, List.dropLast_eq_take, List.length_tail, ← List.drop_one, List.drop_take, List.take_take,
      List.drop_drop]
    congr 1
    · omega
    · congr 1
      omega
  | case2 xs hlt =>
    rw [show (xs.length - count) / 2 = 0 by omega, List.drop_zero, List.take_of_length_le (by omega)]

theorem length_dropPairs (h : count ≤ xs.length) :
    (dropPairs count xs).length = count + (xs.length - count) % 2 := by
  rw [dropPairs_eq_take_drop h, List.length_take, List.length_drop]
  omega

/-- The block in the middle that is one wider than asked for. -/
theorem extract_middle {n : Nat} (hn : xs.length = n) (h : count < n) :
    (xs.extract ((n - count) / 2) ((n - count) / 2 + (count + 1))).Sublist xs ∧
    (xs.extract ((n - count) / 2) ((n - count) / 2 + (count + 1))).length = count + 1 := by
  rw [List.extract_eq_take_drop, Nat.add_sub_cancel_left]
  refine ⟨(List.take_sublist _ _).trans (List.drop_sublist _ _), ?_⟩
  rw [List.length_take, List.length_drop]
  omega

variable [Mark α] (key : β → α)

/-- **Where an even number of entries goes, trimming drops them in turn.** -/
theorem trim_of_even (h : count ≤ xs.length) (heven : (xs.length - count) % 2 = 0) :
    trim key count xs = dropInTurn count true xs := by
  have hwindow : dropPairs count xs = dropInTurn count true xs := by
    rw [dropPairs_eq_take_drop h, dropInTurn_eq_take_drop _ _ _ h, heven, Bool.not_true, Bool.toNat_false, Nat.add_zero,
      Nat.add_zero]
  have hlength := length_dropPairs h
  unfold trim
  dsimp only
  rw [if_neg (by omega), hwindow]

/-- **Where an odd number of entries goes, all but one are dropped in pairs.**  The one that is left over is that of a
block in the middle which is farthest from its median. -/
theorem trim_of_odd (h : count ≤ xs.length) (hodd : (xs.length - count) % 2 = 1) :
    trim key count xs = dropFarthest key
      (xs.extract ((xs.length - count) / 2) ((xs.length - count) / 2 + (count + 1))) := by
  have hwindow : dropPairs count xs =
      xs.extract ((xs.length - count) / 2) ((xs.length - count) / 2 + (count + 1)) := by
    rw [dropPairs_eq_take_drop h, hodd, List.extract_eq_take_drop, Nat.add_sub_cancel_left]
  have hlength := length_dropPairs h
  unfold trim
  dsimp only
  rw [if_pos (by omega), hwindow]

/-! ## The farthest entry -/

/-- Where the larger of two distances is one of them, the largest of some is one of them. -/
theorem largest?_mem (hlarger : ∀ d e : α, Mark.larger d e = d ∨ Mark.larger d e = e) {ds : List α} {top : α}
    (h : largest? ds = some top) : top ∈ ds := by
  cases ds with
  | nil => cases h
  | cons d ds =>
    obtain rfl := Option.some.inj h
    clear h
    induction ds generalizing d with
    | nil => exact List.mem_cons_self
    | cons e ds ih =>
      rw [List.foldl_cons]
      rcases List.mem_cons.1 (ih (Mark.larger d e)) with htop | htop
      · rw [htop]
        rcases hlarger d e with h | h <;> simp [h]
      · exact List.mem_cons_of_mem _ (List.mem_cons_of_mem _ htop)

/-- The last of the largest distances is the same as the largest, and none behind it is. -/
theorem same_of_lastLargest? {ds : List α} {i : Nat} (h : lastLargest? ds = some i) :
    ∃ top, largest? ds = some top ∧ ∃ hi : i < ds.length, Mark.same ds[i] top = true ∧
      ∀ j (hj : j < ds.length), i < j → Mark.same ds[j] top = false := by
  obtain ⟨top, htop, hfound⟩ := Option.bind_eq_some_iff.1 h
  obtain ⟨j, hj, rfl⟩ := Option.map_eq_some_iff.1 hfound
  obtain ⟨hlt, hsame, hbefore⟩ := List.findIdx?_eq_some_iff_getElem.1 hj
  rw [List.length_reverse] at hlt
  rw [List.getElem_reverse] at hsame
  refine ⟨top, htop, by omega, hsame, fun q hq hbehind => ?_⟩
  have hother := hbefore (ds.length - 1 - q) (by omega)
  have hplace : ds.length - 1 - (ds.length - 1 - q) = q := by omega
  simpa only [List.getElem_reverse, hplace, Bool.not_eq_true] using hother

/-- No distance is the last of the largest ones where none is the same as the largest. -/
theorem lastLargest?_eq_none_iff {ds : List α} :
    lastLargest? ds = none ↔ ∀ top, largest? ds = some top → ∀ d ∈ ds, Mark.same d top = false := by
  simp [lastLargest?, Option.bind_eq_none_iff, List.findIdx?_eq_none_iff]

end

/-! ## Scores -/

section

variable {marks sorted block : List Score} {n k : Nat} {count : Option Int}

/-- **A score farthest from the median is found unless none is any number away from it.** -/
theorem lastLargest?_scores_eq_none_iff {ds : List Score} :
    lastLargest? ds = none ↔ ∀ d ∈ ds, d.isNaN = true := by
  cases ds with
  | nil => simp [lastLargest?, largest?]
  | cons d ds =>
    have hall := Score.isNaN_foldl_max d ds
    rw [lastLargest?_eq_none_iff]
    constructor
    · intro h
      have htop : (ds.foldl Score.max d).sameNumber (ds.foldl Score.max d) = false :=
        h _ rfl _ (largest?_mem Score.max_eq_or rfl)
      have hnan : (ds.foldl Score.max d).isNaN = true := by
        by_contra hnumber
        rw [Score.sameNumber_self (Bool.eq_false_iff.2 hnumber)] at htop
        cases htop
      rw [hnan] at hall
      exact List.all_eq_true.1 hall.symm
    · intro h top _ x hx
      rw [Bool.eq_false_iff]
      intro hsame
      have hnumber := (Score.isNaN_of_sameNumber hsame).1
      rw [h x hx] at hnumber
      cases hnumber

theorem middle?_eq_median (h : block.Pairwise fun a b => a.le b = true) (hne : block ≠ []) :
    middle? id block = some (median block) := by
  obtain ⟨m, hm⟩ := middle?_isSome id hne
  rw [median, ascending_eq ⟨.refl block, h⟩, hm]
  rfl

/-- One score of a block is dropped, or none where no score is any number away from the median. -/
theorem length_dropFarthest (h : block.Pairwise fun a b => a.le b = true) (hne : block ≠ []) :
    (dropFarthest id block).length =
      if ∀ x ∈ block, (x - median block).isNaN = true then block.length else block.length - 1 := by
  have hnone : lastLargest? (block.map fun x => Mark.distance (id x) (median block)) = none ↔
      ∀ x ∈ block, (x - median block).isNaN = true := by
    rw [lastLargest?_scores_eq_none_iff, List.forall_mem_map]
    refine forall₂_congr fun x _ => ?_
    rw [show Mark.distance (id x) (median block) = (x - median block).abs from rfl, Score.isNaN_abs]
  unfold dropFarthest
  rw [middle?_eq_median h hne]
  dsimp only
  split
  · rename_i hlast
    rw [if_pos (hnone.1 hlast)]
  · rename_i i hlast
    have hlt := lt_of_lastLargest? hlast
    rw [List.length_map] at hlt
    rw [if_neg (fun hall => by rw [hnone.2 hall] at hlast; cases hlast), List.length_eraseIdx_of_lt hlt]

/-- The median of finite scores is a number. -/
theorem isNaN_median (h : block.Pairwise fun a b => a.le b = true) (hne : block ≠ [])
    (hfinite : ∀ x ∈ block, x.isFinite = true) : (median block).isNaN = false := by
  have hmiddle := middle?_eq_median h hne
  have hpos := List.length_pos_iff.2 hne
  unfold middle? at hmiddle
  dsimp only at hmiddle
  split at hmiddle
  · obtain ⟨x, hx, hmedian⟩ := Option.map_eq_some_iff.1 hmiddle
    rw [← hmedian]
    exact Score.isNaN_of_isFinite (hfinite x (List.mem_of_getElem? hx))
  · split at hmiddle
    · rename_i x y hx hy
      rw [← Option.some.inj hmiddle]
      exact Score.isNaN_midpoint (hfinite x (List.mem_of_getElem? hx)) (hfinite y (List.mem_of_getElem? hy))
    · cases hmiddle

/-- Every finite score is some number away from the median of finite scores. -/
theorem isNaN_sub_median (h : block.Pairwise fun a b => a.le b = true) (hfinite : ∀ x ∈ block, x.isFinite = true)
    {x : Score} (hx : x ∈ block) : (x - median block).isNaN = false :=
  Score.isNaN_sub (hfinite x hx) (isNaN_median h (List.ne_nil_of_mem hx) hfinite)

/-- What is left of sorted scores that are trimmed. -/
theorem length_trim (h : sorted.Pairwise fun a b => a.le b = true) (hk : k ≤ sorted.length) :
    let block := sorted.extract ((sorted.length - k) / 2) ((sorted.length - k) / 2 + (k + 1))
    (trim id k sorted).length =
      if (sorted.length - k) % 2 = 1 ∧ ∀ x ∈ block, (x - median block).isNaN = true then k + 1 else k := by
  intro block
  by_cases hodd : (sorted.length - k) % 2 = 1
  · obtain ⟨hsublist, hsize⟩ : block.Sublist sorted ∧ block.length = k + 1 := extract_middle rfl (by omega)
    have hne : block ≠ [] := List.length_pos_iff.1 (by omega)
    rw [trim_of_odd id hk hodd, length_dropFarthest (h.sublist hsublist) hne, hsize]
    simp only [hodd, true_and, Nat.add_sub_cancel]
  · rw [trim_of_even id hk (by omega), length_dropInTurn true hk, if_neg fun h => hodd h.1]

/-- As many positions are picked as marks. -/
theorem length_indices (c : Criterion) (marks : List Score) : (c.indices marks).length = (c.pick id marks).length := by
  rw [indices_eq, ← Guarded.map_markAt_pick, List.length_map]

/-- **How many scores trimming to the median selects.**  No position is selected twice.  As many are selected as were
asked for, or one more: that is where an odd number of scores goes, and no score of the block in the middle is any number
away from its median, being a NaN or the same infinity as the median is.  Of finite scores as many are selected as were
asked for. -/
theorem length_indices_trimToMedian (h : Sorts marks sorted) (hn : marks.length = n) (hpos : 1 ≤ n)
    (hk : (k : Int) = asked n count) :
    let block := sorted.extract ((n - k) / 2) ((n - k) / 2 + (k + 1))
    (indices (.trimToMedian count) marks).Nodup ∧
    (indices (.trimToMedian count) marks).length =
      (if (n - k) % 2 = 1 ∧ ∀ x ∈ block, (x - median block).isNaN = true then k + 1 else k) ∧
    ((∀ a ∈ marks, a.isFinite = true) → (indices (.trimToMedian count) marks).length = k) := by
  intro block
  subst hn
  obtain rfl := eq_countOf hk
  have hle := countOf_le hpos count
  have hlength : sorted.length = marks.length := h.perm.length_eq
  have hpick : (Criterion.trimToMedian count).pick id marks = trim id (countOf marks.length count) sorted := by
    simp [pick, List.length_pos_iff.1 hpos, ascending_eq h]
  have hcount := length_trim h.pairwise (k := countOf marks.length count) (by omega)
  rw [← hpick, ← length_indices, hlength] at hcount
  refine ⟨nodup_indices _ marks, hcount, fun hfinite => ?_⟩
  rw [hcount, if_neg]
  rintro ⟨hodd, hall⟩
  -- the block is not empty, and its first score is some number away from the median
  obtain ⟨hsublist, hsize⟩ : block.Sublist sorted ∧ block.length = _ := extract_middle hlength (by omega)
  have hsome : 0 < block.length := hsize ▸ Nat.succ_pos _
  obtain ⟨x, hx⟩ := List.exists_mem_of_length_pos hsome
  have hnumber := isNaN_sub_median (h.pairwise.sublist hsublist)
    (fun a ha => hfinite a (h.perm.mem_iff.1 (hsublist.subset ha))) hx
  rw [hall x hx] at hnumber
  cases hnumber

theorem length_indices_trimToMedian_infinity : ∃ marks sorted : List Score, Sorts marks sorted ∧ marks.length = 5 ∧
    ((2 : Nat) : Int) = asked 5 (some 2) ∧ sorted.extract 1 4 = [1, .infinity, .infinity] ∧
    (indices (.trimToMedian (some 2)) marks).Nodup ∧ (indices (.trimToMedian (some 2)) marks).length = 2 := by
  let marks : List Score := [.infinity, 1, .nan, .infinity, -5]
  let sorted : List Score := [-5, 1, .infinity, .infinity, .nan]
  have hsorts : Sorts marks sorted := ⟨by decide +kernel, by decide +kernel⟩
  have hasked : ((2 : Nat) : Int) = asked 5 (some 2) := rfl
  have hlength : marks.length = 5 := rfl
  obtain ⟨hnodup, hcount, -⟩ := length_indices_trimToMedian hsorts hlength (by decide) hasked
  have hnumber : ¬ ((5 - 2) % 2 = 1 ∧ ∀ x ∈ sorted.extract 1 4, (x - median (sorted.extract 1 4)).isNaN = true) := by
    decide +kernel
  exact ⟨marks, sorted, hsorts, hlength, hasked, rfl, hnodup, hcount.trans (if_neg hnumber)⟩

/-- **Infinite scores may all be selected**, whatever number is asked for: both of two infinities are. -/
theorem not_length_indices_trimToMedian : ¬ ∀ (marks : List Score) (count : Option Int) (k : Nat), marks ≠ [] →
    (k : Int) = asked marks.length count → (indices (.trimToMedian count) marks).length = k := by
  intro hall
  have hboth : indices (.trimToMedian (some 1)) [Score.infinity, Score.infinity] = [0, 1] := by decide +kernel
  have hone := hall [.infinity, .infinity] (some 1) 1 (List.cons_ne_nil _ _) rfl
  rw [hboth] at hone
  cases hone

end

end Criterion
end Scoresheet
