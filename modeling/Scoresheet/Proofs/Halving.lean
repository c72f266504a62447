import Scoresheet.Proofs.Covering
/-!
# Windows cut in two

A window may be taken in two runs, the second from where the first one ends.  Clamping the start, bounding the end and
stopping before a crash then leave no item out and take none twice: the items that count for a judge are those of the
window before the crash (`itemsFor_eq_filter`), and of the windows themselves one starts where the other stops
(`itemsOf_append`).  So the items of the two runs, one after the other, are those of the whole window
(`itemsFor_halves`), and so are the lines of both directions (`rowLines_append`, `columnLines_append`).
-/
namespace Scoresheet
namespace Sheet

variable {s : Sheet} {w : Window} {judge item : Nat}

/-! ## Items before the crash -/

/-- An item comes before the crash that a judge saw, if there was one. -/
def beforeCrash (s : Sheet) (judge item : Nat) : Bool :=
  decide (0 < s.crashes[judge]?.getD 0 → (item : Int) < s.crashes[judge]?.getD 0 - 1)

theorem mem_itemsFor_iff : item ∈ s.itemsFor w judge ↔ item ∈ s.itemsOf w ∧ s.beforeCrash judge item = true := by
  rw [mem_itemsFor, mem_itemsOf, lt_stopFor_iff, beforeCrash, decide_eq_true_eq, and_assoc]

/-- **The items that count for a judge are those of the window before the crash.** -/
theorem itemsFor_eq_filter (s : Sheet) (w : Window) (judge : Nat) :
    s.itemsFor w judge = (s.itemsOf w).filter (s.beforeCrash judge) := by
  have hall : (s.itemsFor w judge).Pairwise (· < ·) := List.pairwise_lt_range'
  have hbefore : ((s.itemsOf w).filter (s.beforeCrash judge)).Pairwise (· < ·) :=
    List.Pairwise.filter _ List.pairwise_lt_range'
  -- both increase, so they are one list as soon as they have the same members
  have hperm : (s.itemsFor w judge).Perm ((s.itemsOf w).filter (s.beforeCrash judge)) := by
    refine (List.perm_ext_iff_of_nodup (hall.imp Nat.ne_of_lt) (hbefore.imp Nat.ne_of_lt)).2 fun item => ?_
    rw [mem_itemsFor_iff, List.mem_filter]
  exact hperm.eq_of_pairwise (fun _ _ _ _ h h' => absurd h (Nat.lt_asymm h')) hall hbefore

theorem columnLines_eq_map (s : Sheet) (w : Window) :
    s.columnLines w = (s.itemsOf w).map fun item =>
      ((List.range s.rows.length).filter fun judge => s.beforeCrash judge item).map fun judge => s.cell judge item := by
  refine List.map_congr_left fun item hitem => congrArg _ (List.filter_congr fun judge _ => ?_)
  rw [Bool.eq_iff_iff, List.contains_iff_mem, mem_itemsFor_iff, and_iff_right hitem]

/-! ## Two runs -/

/-- Numbers from one place to another and from there to a third are those from the first to the third. -/
theorem range'_append_range' {first seam last : Nat} (hfirst : first ≤ seam) (hlast : seam ≤ last) :
    List.range' first (seam - first) ++ List.range' seam (last - seam) = List.range' first (last - first) := by
  obtain ⟨n, rfl⟩ := Nat.exists_eq_add_of_le hfirst
  rw [Nat.add_sub_cancel_left, List.range'_append_1]
  congr 1
  omega

/-- **The second run starts where the first one stops**, and it stops where both together do. -/
theorem itemsOf_append (s : Sheet) (start count : Nat) (more : Option Nat) :
    s.itemsOf ⟨start, some count⟩ ++ s.itemsOf ⟨start + count, more⟩ = s.itemsOf ⟨start, more.map (count + ·)⟩ := by
  have hseam : s.first ⟨start + count, more⟩ = s.stop ⟨start, some count⟩ := by
    simp only [first, stop]
    omega
  have hstop : s.stop ⟨start + count, more⟩ = s.stop ⟨start, more.map (count + ·)⟩ := by
    cases more with
    | none => rfl
    | some n =>
      simp only [first, stop, Option.map_some]
      omega
  have hfirst : s.first ⟨start, some count⟩ ≤ s.stop ⟨start, some count⟩ := by
    simp only [first, stop]
    omega
  have hlast : s.first ⟨start + count, more⟩ ≤ s.stop ⟨start + count, more⟩ := by
    cases more with
    | none => exact Nat.min_le_right _ _
    | some n =>
      simp only [first, stop]
      omega
  rw [hseam, hstop] at hlast
  unfold itemsOf
  rw [hseam, hstop]
  exact range'_append_range' hfirst hlast

theorem itemsFor_append (s : Sheet) (judge start count : Nat) (more : Option Nat) :
    s.itemsFor ⟨start, some count⟩ judge ++ s.itemsFor ⟨start + count, more⟩ judge =
      s.itemsFor ⟨start, more.map (count + ·)⟩ judge := by
  simp only [itemsFor_eq_filter, ← List.filter_append, itemsOf_append]

/-- **The line of a judge is that of the first run and then that of the second.** -/
theorem rowLines_append (s : Sheet) (start count : Nat) (more : Option Nat) :
    List.zipWith (· ++ ·) (s.rowLines ⟨start, some count⟩) (s.rowLines ⟨start + count, more⟩) =
      s.rowLines ⟨start, more.map (count + ·)⟩ := by
  simp only [rowLines, List.zipWith_map, List.zipWith_self, ← List.map_append, itemsFor_append]

/-- **The lines of the items are those of the first run and then those of the second.** -/
theorem columnLines_append (s : Sheet) (start count : Nat) (more : Option Nat) :
    s.columnLines ⟨start, some count⟩ ++ s.columnLines ⟨start + count, more⟩ =
      s.columnLines ⟨start, more.map (count + ·)⟩ := by
  simp only [columnLines_eq_map, ← List.map_append, itemsOf_append]

/-- **A window splits without a gap and without an overlap.**  The items of a run of some count, and then those of the
run from there on, of some count or to the end, are those of both together, wherever the judge saw a crash. -/
theorem itemsFor_halves (s : Sheet) (judge start count : Nat) :
    (∀ more, s.itemsFor ⟨start, some count⟩ judge ++ s.itemsFor ⟨start + count, some more⟩ judge =
      s.itemsFor ⟨start, some (count + more)⟩ judge) ∧
    s.itemsFor ⟨start, some count⟩ judge ++ s.itemsFor ⟨start + count, none⟩ judge =
      s.itemsFor ⟨start, none⟩ judge :=
  ⟨fun more => s.itemsFor_append judge start count (some more), s.itemsFor_append judge start count none⟩

end Sheet
end Scoresheet
