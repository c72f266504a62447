import Mathlib.Data.List.InsertIdx
import Scoresheet.Call.Reduction
import Scoresheet.Proofs.Guards
/-!
# Selection by positions

A criterion can pick marks without moving them: it sorts their positions, cuts positions off, and reads the marks that
are left.  Every position that it compares, cuts or reads is in its list (`Guarded.indices_eq`), because all it ever has
are positions of the marks that it was given.
-/
namespace Scoresheet

/-! ## Entries carried along -/

section

variable {α β γ : Type}

theorem insertBy_map (le : β → β → Bool) (f : γ → β) (x : γ) : ∀ ys : List γ,
    insertBy le (f x) (ys.map f) = (insertBy (fun a b => le (f a) (f b)) x ys).map f
  | [] => rfl
  | y :: ys => by
    rw [List.map_cons, insertBy, insertBy, insertBy_map le f x ys]
    split <;> rfl

theorem sortBy_map (le : β → β → Bool) (f : γ → β) (xs : List γ) :
    sortBy le (xs.map f) = (sortBy (fun a b => le (f a) (f b)) xs).map f := by
  induction xs with
  | nil => rfl
  | cons x xs ih =>
    show insertBy le (f x) (sortBy le (xs.map f)) = _
    rw [ih, insertBy_map]
    rfl

end

namespace Criterion

variable {α β γ : Type}

theorem dropInTurn_map (f : γ → β) (count : Nat) (last : Bool) (xs : List γ) :
    dropInTurn count last (xs.map f) = (dropInTurn count last xs).map f := by
  fun_induction dropInTurn count last xs with
  | case1 xs h ih =>
    rw [dropInTurn, List.length_map, if_pos h, if_pos rfl, ← List.map_dropLast, ih]
  | case2 last xs h hlast ih =>
    rw [dropInTurn, List.length_map, if_pos h, if_neg hlast, ← List.map_tail, ih]
  | case3 last xs h => rw [dropInTurn, List.length_map, if_neg h]

theorem dropPairs_map (f : γ → β) (count : Nat) (xs : List γ) :
    dropPairs count (xs.map f) = (dropPairs count xs).map f := by
  fun_induction dropPairs count xs with
  | case1 xs h ih => rw [dropPairs, List.length_map, if_pos h, ← List.map_tail, ← List.map_dropLast, ih]
  | case2 xs h => rw [dropPairs, List.length_map, if_neg h]

variable [Mark α] (key : β → α) (f : γ → β)

theorem middle?_map (xs : List γ) : middle? key (xs.map f) = middle? (key ∘ f) xs := by
  unfold middle?
  simp only [List.length_map, List.getElem?_map]
  split
  · rw [Option.map_map]
  · cases xs[xs.length / 2 - 1]? <;> cases xs[xs.length / 2]? <;> rfl

theorem dropFarthest_map (xs : List γ) : dropFarthest key (xs.map f) = (dropFarthest (key ∘ f) xs).map f := by
  unfold dropFarthest
  rw [middle?_map]
  cases middle? (key ∘ f) xs with
  | none => rfl
  | some m =>
    simp only [List.map_map, Function.comp_def]
    cases lastLargest? (xs.map fun x => Mark.distance (key (f x)) m) with
    | none => rfl
    | some i => exact List.eraseIdx_map f xs i

theorem trim_map (count : Nat) (xs : List γ) : trim key count (xs.map f) = (trim (key ∘ f) count xs).map f := by
  unfold trim
  simp only [dropPairs_map, List.length_map, dropFarthest_map]
  split <;> rfl

theorem ascending_map (xs : List γ) : ascending key (xs.map f) = (ascending (key ∘ f) xs).map f := sortBy_map _ f xs

theorem descending_map (xs : List γ) : descending key (xs.map f) = (descending (key ∘ f) xs).map f := sortBy_map _ f xs

@[simp] theorem length_ascending (xs : List β) : (ascending key xs).length = xs.length := length_sortBy _ xs

@[simp] theorem length_descending (xs : List β) : (descending key xs).length = xs.length := length_sortBy _ xs

/-- **Picking sees entries by their marks alone.** -/
theorem pick_map (c : Criterion) (xs : List γ) : c.pick key (xs.map f) = (c.pick (key ∘ f) xs).map f := by
  unfold pick
  rw [List.isEmpty_map]
  split
  · rfl
  · cases c with
    | worst count => simp only [ascending_map, List.length_map, List.map_take]
    | best count => simp only [descending_map, List.length_map, List.map_take]
    | all count =>
      simp only [descending_map, List.length_map]
      split
      · rw [List.map_take]
      · rfl
    | dropExtremes =>
      simp only [ascending_map, List.length_map]
      split
      · rfl
      · rw [List.map_dropLast, List.map_tail]
    | dropExtremesUntil count => simp only [ascending_map, List.length_map, dropInTurn_map]
    | trimToMedian count => simp only [ascending_map, List.length_map, trim_map]

theorem lt_of_lastLargest? {ds : List α} {i : Nat} (h : lastLargest? ds = some i) : i < ds.length := by
  obtain ⟨top, -, hi⟩ := Option.bind_eq_some_iff.1 h
  obtain ⟨j, hj, rfl⟩ := Option.map_eq_some_iff.1 hi
  obtain ⟨hlt, -⟩ := List.findIdx?_eq_some_iff_getElem.1 hj
  rw [List.length_reverse] at hlt
  omega

theorem middle?_isSome {xs : List β} (h : xs ≠ []) : ∃ m, middle? key xs = some m := by
  have hpos := List.length_pos_iff.2 h
  have hhalf : xs.length / 2 < xs.length := by omega
  have hbefore : xs.length / 2 - 1 < xs.length := by omega
  unfold middle?
  dsimp only
  split
  · rw [List.getElem?_eq_getElem hhalf]
    exact ⟨_, rfl⟩
  · rw [List.getElem?_eq_getElem hhalf, List.getElem?_eq_getElem hbefore]
    exact ⟨_, rfl⟩

theorem dropInTurn_sublist (count : Nat) (last : Bool) (xs : List β) : (dropInTurn count last xs).Sublist xs := by
  fun_induction dropInTurn count last xs with
  | case1 xs h ih => exact ih.trans (List.dropLast_sublist xs)
  | case2 last xs h hlast ih => exact ih.trans (List.tail_sublist xs)
  | case3 last xs h => exact .refl xs

theorem dropPairs_sublist (count : Nat) (xs : List β) : (dropPairs count xs).Sublist xs := by
  fun_induction dropPairs count xs with
  | case1 xs h ih => exact ih.trans ((List.dropLast_sublist _).trans (List.tail_sublist xs))
  | case2 xs h => exact .refl xs

theorem dropFarthest_sublist (xs : List β) : (dropFarthest key xs).Sublist xs := by
  unfold dropFarthest
  split
  · exact .refl xs
  · split
    · exact .refl xs
    · exact List.eraseIdx_sublist xs _

theorem trim_sublist (count : Nat) (xs : List β) : (trim key count xs).Sublist xs := by
  unfold trim
  dsimp only
  split
  · exact (dropFarthest_sublist key _).trans (dropPairs_sublist count xs)
  · exact dropPairs_sublist count xs

theorem pick_worst (count : Option Int) (xs : List β) :
    pick key (.worst count) xs = (ascending key xs).take (countOf xs.length count) := by
  cases xs with
  | nil => exact List.take_nil.symm
  | cons x xs => rfl

theorem pick_best (count : Option Int) (xs : List β) :
    pick key (.best count) xs = (descending key xs).take (countOf xs.length count) := by
  cases xs with
  | nil => exact List.take_nil.symm
  | cons x xs => rfl

/-- The entries in the order in which a criterion goes through them: from the largest mark for the best ones, as they
come where all are kept, and from the smallest mark otherwise. -/
def arrangement (c : Criterion) (xs : List β) : List β :=
  match c with
  | .best _ => descending key xs
  | .all count => if countOf xs.length count < xs.length then descending key xs else xs
  | _ => ascending key xs

theorem arrangement_perm (c : Criterion) (xs : List β) : (c.arrangement key xs).Perm xs := by
  unfold arrangement
  split
  · exact sortBy_perm _ xs
  · split
    · exact sortBy_perm _ xs
    · exact .refl xs
  · exact sortBy_perm _ xs

/-- **Picking keeps some entries of an arrangement and drops the others.** -/
theorem pick_sublist (c : Criterion) (xs : List β) : (c.pick key xs).Sublist (c.arrangement key xs) := by
  unfold pick
  split
  · exact List.nil_sublist _
  · cases c with
    | worst count => exact List.take_sublist _ _
    | best count => exact List.take_sublist _ _
    | all count =>
      dsimp only [arrangement]
      split
      · exact List.take_sublist _ _
      · exact .refl xs
    | dropExtremes =>
      dsimp only [arrangement]
      split
      · exact .refl _
      · exact (List.dropLast_sublist _).trans (List.tail_sublist _)
    | dropExtremesUntil count => exact dropInTurn_sublist _ _ _
    | trimToMedian count => exact trim_sublist key _ _

/-- Nothing is picked that was not given. -/
theorem pick_subset (c : Criterion) (xs : List β) : c.pick key xs ⊆ xs := by
  intro x hx
  exact (c.arrangement_perm key xs).mem_iff.1 ((c.pick_sublist key xs).subset hx)

end Criterion

namespace Guarded

variable {α : Type}

/-! ## Cutting positions off -/

theorem slice_inner {xs : List α} (h : 2 ≤ xs.length) : slice xs 1 (xs.length - 1) = some xs.tail.dropLast := by
  have hbounds : 1 ≤ xs.length - 1 ∧ xs.length - 1 ≤ xs.length := by omega
  rw [slice, if_pos hbounds, List.drop_take, List.drop_one, List.dropLast_eq_take, List.length_tail]

/-- The last and the first position dropped in turn, until `count` are left. -/
def dropInTurn (count : Nat) (last : Bool) (xs : List α) : Option (List α) :=
  if count < xs.length then
    if last then dropInTurn count false xs.dropLast
    else
      match _h : remove xs 0 with
      | none => none
      | some ys => dropInTurn count true ys
  else some xs
termination_by xs.length
decreasing_by
  · rw [List.length_dropLast]; omega
  · unfold remove at _h
    split at _h
    · cases _h
      rw [List.length_eraseIdx]
      split <;> omega
    · cases _h

theorem dropInTurn_eq (count : Nat) (last : Bool) (xs : List α) :
    dropInTurn count last xs = some (Criterion.dropInTurn count last xs) := by
  fun_induction Criterion.dropInTurn count last xs with
  | case1 xs h ih => rw [dropInTurn, if_pos h, if_pos rfl, ih]
  | case2 last xs h hlast ih =>
    have hremove : remove xs 0 = some xs.tail := by
      rw [remove, if_pos (by omega), List.eraseIdx_zero]
    rw [dropInTurn, if_pos h, if_neg hlast]
    split
    · rename_i hnone
      rw [hremove] at hnone
      cases hnone
    · rename_i ys hys
      rw [hremove] at hys
      cases hys
      exact ih
  | case3 last xs h => rw [dropInTurn, if_neg h]

/-- The first and the last position dropped together, until at most one is left over. -/
def dropPairs (count : Nat) (xs : List α) : Option (List α) :=
  if count + 2 ≤ xs.length then
    match _h : slice xs 1 (xs.length - 1) with
    | none => none
    | some ys => dropPairs count ys
  else some xs
termination_by xs.length
decreasing_by
  unfold slice at _h
  split at _h
  · cases _h
    rw [List.length_drop, List.length_take]
    omega
  · cases _h

theorem dropPairs_eq (count : Nat) (xs : List α) : dropPairs count xs = some (Criterion.dropPairs count xs) := by
  fun_induction Criterion.dropPairs count xs with
  | case1 xs h ih =>
    have hslice := @slice_inner _ xs (by omega)
    rw [dropPairs, if_pos h]
    split
    · rename_i hnone
      rw [hslice] at hnone
      cases hnone
    · rename_i ys hys
      rw [hslice] at hys
      cases hys
      exact ih
  | case2 xs h => rw [dropPairs, if_neg h]

/-! ## Positions of marks -/

/-- The mark at a position that has one. -/
def markAt (marks : List Score) (i : Nat) : Score := marks[i]?.getD 0

/-- How the marks at two positions compare. -/
def compare (marks : List Score) (i j : Nat) : Option Bool := do
  let a ← marks[i]?
  let b ← marks[j]?
  return a.le b

/-- The positions from the smallest to the largest mark. -/
def ascending (marks : List Score) : Option (List Nat) := sortBy (compare marks) (List.range marks.length)

/-- The positions from the largest to the smallest mark. -/
def descending (marks : List Score) : Option (List Nat) :=
  sortBy (fun i j => compare marks j i) (List.range marks.length)

/-- The middle one of sorted marks; zero where there are none. -/
def middle (sorted : List Score) : Option Score :=
  let half := sorted.length / 2
  if sorted.length = 0 then some 0
  else if sorted.length % 2 = 1 then sorted[half]?
  else do
    let before ← sorted[← subtract half 1]?
    let after ← sorted[half]?
    return (before + after) / 2

/-- Positions of sorted marks without the one farthest from the median. -/
def dropFarthest (marks : List Score) (places : List Nat) : Option (List Nat) := do
  let sorted ← readAll marks places
  let median ← middle sorted
  match Criterion.lastLargest? (sorted.map fun x => (x - median).abs) with
  | none => return places
  | some i => remove places i

/-- The positions of sorted marks trimmed from both ends. -/
def trim (marks : List Score) (count : Nat) : Option (List Nat) := do
  let places ← ascending marks
  if places.length ≤ count then return places
  let block ← dropPairs count places
  if count < block.length then dropFarthest marks block else return block

/-- The count asked for, kept between one and the number of marks. -/
def clampCount (size : Nat) (count : Int) : Option Nat := do natural (← clamp 1 size count)

def countOf (size : Nat) : Option Int → Option Nat
  | none => some size
  | some count => clampCount size count

/-- The positions of the marks that a criterion picks. -/
def indices (c : Criterion) (marks : List Score) : Option (List Nat) :=
  let size := marks.length
  if size = 0 then some []
  else match c with
    | .worst count => do return (← ascending marks).take (← countOf size count)
    | .best count => do return (← descending marks).take (← countOf size count)
    | .all none => some (List.range size)
    | .all (some count) => do
      if (← clampCount size count) < size then return (← descending marks).take (← clampCount size count)
      return List.range size
    | .dropExtremes => do
      let places ← ascending marks
      if size ≤ 2 then return places
      slice places 1 (← subtract size 1)
    | .dropExtremesUntil count => do dropInTurn (← clampCount size count) true (← ascending marks)
    | .trimToMedian count => do trim marks (← countOf size count)

/-- The marks that a criterion picks. -/
def select (c : Criterion) (marks : List Score) : Option (List Score) := do
  let picked ← readAll marks (← indices c marks)
  match c with
  | .all _ => return Criterion.descending id picked
  | _ => return picked

/-! ## Positions stay in range -/

section

variable {marks : List Score}

theorem getElem?_of_lt {i : Nat} (h : i < marks.length) : marks[i]? = some (markAt marks i) := by
  rw [markAt, List.getElem?_eq_getElem h]
  rfl

theorem map_markAt_range (marks : List Score) : (List.range marks.length).map (markAt marks) = marks := by
  refine List.ext_getElem (by simp) fun i hi hi' => ?_
  simp [markAt, hi']

theorem readAll_eq {places : List Nat} (h : ∀ i ∈ places, i < marks.length) :
    readAll marks places = some (places.map (markAt marks)) :=
  mapM_eq fun i hi => getElem?_of_lt (h i hi)

theorem compare_eq {i j : Nat} (hi : i < marks.length) (hj : j < marks.length) :
    compare marks i j = some ((markAt marks i).le (markAt marks j)) := by
  rw [compare, getElem?_of_lt hi, getElem?_of_lt hj]
  rfl

theorem ascending_eq (marks : List Score) :
    ascending marks = some (Criterion.ascending (markAt marks) (List.range marks.length)) :=
  sortBy_eq fun _ hi _ hj => compare_eq (List.mem_range.1 hi) (List.mem_range.1 hj)

theorem descending_eq (marks : List Score) :
    descending marks = some (Criterion.descending (markAt marks) (List.range marks.length)) :=
  sortBy_eq fun _ hi _ hj => compare_eq (List.mem_range.1 hj) (List.mem_range.1 hi)

theorem middle_eq (sorted : List Score) : middle sorted = some ((Criterion.middle? id sorted).getD 0) := by
  by_cases hempty : sorted = []
  · rw [hempty]
    rfl
  · have hpos := List.length_pos_iff.2 hempty
    obtain ⟨m, hm⟩ := Criterion.middle?_isSome id hempty
    rw [hm]
    unfold Criterion.middle? at hm
    unfold middle
    dsimp only at hm ⊢
    rw [if_neg (by omega)]
    by_cases hodd : sorted.length % 2 = 1
    · rw [if_pos hodd] at hm ⊢
      simpa using hm
    · rw [if_neg hodd] at hm ⊢
      have hhalf : sorted.length / 2 < sorted.length := by omega
      have hbefore : sorted.length / 2 - 1 < sorted.length := by omega
      rw [List.getElem?_eq_getElem hhalf, List.getElem?_eq_getElem hbefore] at hm
      rw [subtract, if_pos (by omega)]
      simp only [Option.bind_eq_bind, Option.bind_some, List.getElem?_eq_getElem hhalf,
        List.getElem?_eq_getElem hbefore]
      exact hm

theorem dropFarthest_eq {places : List Nat} (h : ∀ i ∈ places, i < marks.length) (hne : places ≠ []) :
    dropFarthest marks places = some (Criterion.dropFarthest (markAt marks) places) := by
  obtain ⟨m, hm⟩ := Criterion.middle?_isSome (markAt marks) hne
  have hmiddle : middle (places.map (markAt marks)) = some m := by
    rw [middle_eq, Criterion.middle?_map]
    exact congrArg (fun o => some (Option.getD o 0)) hm
  unfold dropFarthest Criterion.dropFarthest
  simp only [readAll_eq h, hmiddle, hm, Option.bind_eq_bind, Option.bind_some, List.map_map]
  show (match Criterion.lastLargest? (places.map fun i => (markAt marks i - m).abs) with
    | none => some places
    | some i => remove places i) = some (match Criterion.lastLargest? (places.map fun i => (markAt marks i - m).abs) with
    | none => places
    | some i => places.eraseIdx i)
  cases hlast : Criterion.lastLargest? (places.map fun i => (markAt marks i - m).abs) with
  | none => rfl
  | some i =>
    have hlt := Criterion.lt_of_lastLargest? hlast
    rw [List.length_map] at hlt
    exact if_pos hlt

theorem clampCount_eq {size : Nat} (h : 0 < size) (count : Int) :
    clampCount size count = some (Criterion.clampCount size count) := by
  have hbounds : (1 : Int) ≤ size := by omega
  unfold clampCount Criterion.clampCount
  rw [clamp, if_pos hbounds]
  show natural (max 1 (min count size)) = _
  rw [natural, if_pos (by omega)]
  congr 1
  omega

theorem countOf_eq {size : Nat} (h : 0 < size) (count : Option Int) :
    countOf size count = some (Criterion.countOf size count) := by
  cases count with
  | none => rfl
  | some count => exact clampCount_eq h count

theorem trim_eq (count : Nat) (marks : List Score) : trim marks count =
    some (Criterion.trim (markAt marks) count (Criterion.ascending (markAt marks) (List.range marks.length))) := by
  let places := Criterion.ascending (markAt marks) (List.range marks.length)
  have hplaces : ∀ i ∈ places, i < marks.length := fun i hi => List.mem_range.1 (mem_sortBy.1 hi)
  unfold trim
  simp only [ascending_eq, Option.bind_eq_bind, Option.bind_some, dropPairs_eq]
  show (if places.length ≤ count then some places else if count < (Criterion.dropPairs count places).length then
    dropFarthest marks (Criterion.dropPairs count places) else some (Criterion.dropPairs count places)) =
      some (if count < (Criterion.dropPairs count places).length then
        Criterion.dropFarthest (markAt marks) (Criterion.dropPairs count places) else Criterion.dropPairs count places)
  by_cases hlength : places.length ≤ count
  · have hpairs : Criterion.dropPairs count places = places := by
      rw [Criterion.dropPairs, if_neg (by omega)]
    rw [if_pos hlength, hpairs, if_neg (by omega)]
  · rw [if_neg hlength]
    by_cases hblock : count < (Criterion.dropPairs count places).length
    · have hne : Criterion.dropPairs count places ≠ [] := List.length_pos_iff.1 (by omega)
      rw [if_pos hblock, if_pos hblock]
      exact dropFarthest_eq (fun i hi => hplaces i ((Criterion.dropPairs_sublist count places).subset hi)) hne
    · rw [if_neg hblock, if_neg hblock]

/-- **All positions that a criterion uses are positions of marks.** -/
theorem indices_eq (c : Criterion) (marks : List Score) :
    indices c marks = some (c.pick (markAt marks) (List.range marks.length)) := by
  unfold indices Criterion.pick
  by_cases hempty : marks.length = 0
  · rw [if_pos hempty, hempty]
    rfl
  · have hpos : 0 < marks.length := by omega
    have hrange : (List.range marks.length).isEmpty = false := by
      rw [List.isEmpty_eq_false_iff]
      exact List.length_pos_iff.1 (by rwa [List.length_range])
    rw [if_neg hempty, hrange, if_neg Bool.false_ne_true]
    cases c with
    | worst count => simp [ascending_eq, countOf_eq hpos]
    | best count => simp [descending_eq, countOf_eq hpos]
    | all count =>
      cases count with
      | none => simp [Criterion.countOf]
      | some count =>
        simp only [descending_eq, clampCount_eq hpos, List.length_range, Criterion.countOf, Option.bind_eq_bind,
          Option.bind_some]
        split <;> rfl
    | dropExtremes =>
      have hlength : (Criterion.ascending (markAt marks) (List.range marks.length)).length = marks.length := by
        rw [Criterion.length_ascending, List.length_range]
      simp only [ascending_eq, List.length_range, Option.bind_eq_bind, Option.bind_some]
      split
      · rfl
      · have hinner := @slice_inner _ (Criterion.ascending (markAt marks) (List.range marks.length)) (by omega)
        rw [hlength] at hinner
        rw [subtract, if_pos (by omega)]
        exact hinner
    | dropExtremesUntil count => simp [ascending_eq, clampCount_eq hpos, dropInTurn_eq]
    | trimToMedian count => simp [countOf_eq hpos, trim_eq]

/-- The positions that a criterion picks, each with something else that stands at it. -/
theorem pick_zip (c : Criterion) {marks others : List Score} (h : marks.length = others.length) :
    (c.pick Prod.fst (marks.zip others)).map Prod.snd =
      (c.pick (markAt marks) (List.range marks.length)).map (markAt others) := by
  have hzip : marks.zip others = (List.range marks.length).map fun i => (markAt marks i, markAt others i) := by
    refine List.ext_getElem (by simp [h]) fun i hi hi' => ?_
    rw [List.length_map, List.length_range] at hi'
    simp [markAt, hi', h ▸ hi']
  rw [hzip, Criterion.pick_map, List.map_map]
  rfl

/-- The marks at the positions that a criterion picks are the marks that it picks. -/
theorem map_markAt_pick (c : Criterion) (marks : List Score) :
    (c.pick (markAt marks) (List.range marks.length)).map (markAt marks) = c.pick id marks := by
  conv_rhs => rw [← map_markAt_range marks]
  rw [Criterion.pick_map]
  rfl

theorem select_eq (c : Criterion) (marks : List Score) : select c marks = some (c.select marks) := by
  have hread : readAll marks (c.pick (markAt marks) (List.range marks.length)) = some (c.pick id marks) := by
    rw [readAll_eq fun i hi => List.mem_range.1 (c.pick_subset (markAt marks) _ hi), map_markAt_pick]
  unfold select Criterion.select
  rw [indices_eq]
  simp only [Option.bind_eq_bind, Option.bind_some, hread]
  cases c <;> rfl

end

/-! ## Aggregates -/

/-- The aggregate of marks. -/
def aggregate (a : Aggregate) (marks : List Score) : Option Score :=
  match a with
  | .median => middle (Criterion.ascending id marks)
  | a => some (a.apply marks)

theorem aggregate_eq (a : Aggregate) (marks : List Score) : aggregate a marks = some (a.apply marks) := by
  cases a with
  | median =>
    rw [aggregate, middle_eq, Aggregate.apply]
    split
    · rename_i hempty
      rw [List.isEmpty_iff.1 hempty]
      rfl
    · rfl
  | _ => rfl

end Guarded
end Scoresheet
