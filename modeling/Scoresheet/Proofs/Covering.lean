import Mathlib.Data.List.Nodup
import Scoresheet.Call.Reduction
/-!
# Lines that cover a window

A window is cut into lines twice, by judges and by items, and the two cuts work their bounds out apart.  Both take every
cell that the window has for its judge into one line, and no other cell into any (`perm_lines`).  So an item expression
meets the same marks at the same positions, whichever lines are reduced first.
-/
namespace Scoresheet

/-- Where a cell stands. -/
def Cell.place (c : Cell) : Nat × Nat := (c.judge, c.item)

namespace Sheet

variable {s : Sheet} {w : Window} {judge item : Nat} {c : Cell}

/-- The cell of a judge for an item is in a window: the sheet has a row for the judge, the item is within the bounds of
the window, cut to those of the sheet, and it comes before the item at which the judge saw a crash. -/
structure Has (s : Sheet) (w : Window) (judge item : Nat) : Prop where
  row : judge < s.rows.length
  lower : min w.start s.items ≤ item
  upper : item < w.count.elim s.items fun count => min (min w.start s.items + count) s.items
  crash : 0 < s.crashes[judge]?.getD 0 → (item : Int) < s.crashes[judge]?.getD 0 - 1

/-! ## Items -/

theorem stop_eq (s : Sheet) (w : Window) :
    s.stop w = w.count.elim s.items fun count => min (min w.start s.items + count) s.items := by
  unfold stop first
  cases w.count <;> rfl

theorem lt_stopFor_iff : item < s.stopFor w judge ↔
    item < s.stop w ∧ (0 < s.crashes[judge]?.getD 0 → (item : Int) < s.crashes[judge]?.getD 0 - 1) := by
  unfold stopFor
  dsimp only
  split <;> omega

theorem mem_itemsFor : item ∈ s.itemsFor w judge ↔ s.first w ≤ item ∧ item < s.stopFor w judge := by
  rw [itemsFor, List.mem_range'_1]
  omega

theorem mem_itemsOf : item ∈ s.itemsOf w ↔ s.first w ≤ item ∧ item < s.stop w := by
  rw [itemsOf, List.mem_range'_1]
  omega

theorem mem_itemsOf_of_mem_itemsFor (h : item ∈ s.itemsFor w judge) : item ∈ s.itemsOf w :=
  have hbounds := mem_itemsFor.1 h
  mem_itemsOf.2 ⟨hbounds.1, (lt_stopFor_iff.1 hbounds.2).1⟩

theorem has_iff : s.Has w judge item ↔ judge < s.rows.length ∧ item ∈ s.itemsFor w judge := by
  rw [mem_itemsFor, lt_stopFor_iff, stop_eq]
  exact ⟨fun h => ⟨h.row, h.lower, h.upper, h.crash⟩, fun h => ⟨h.1, h.2.1, h.2.2.1, h.2.2.2⟩⟩

/-! ## Lines -/

theorem mem_rowLines : c ∈ (s.rowLines w).flatten ↔ s.Has w c.judge c.item ∧ s.cell c.judge c.item = c := by
  simp only [rowLines, has_iff, List.mem_flatten, List.mem_map, List.mem_range, exists_exists_and_eq_and]
  constructor
  · rintro ⟨judge, hjudge, item, hitem, rfl⟩
    exact ⟨⟨hjudge, hitem⟩, rfl⟩
  · rintro ⟨⟨hjudge, hitem⟩, hc⟩
    exact ⟨c.judge, hjudge, c.item, hitem, hc⟩

theorem mem_columnLines : c ∈ (s.columnLines w).flatten ↔ s.Has w c.judge c.item ∧ s.cell c.judge c.item = c := by
  simp only [columnLines, has_iff, List.mem_flatten, List.mem_map, List.mem_filter, List.mem_range,
    List.contains_iff_mem, exists_exists_and_eq_and]
  constructor
  · rintro ⟨item, -, judge, ⟨hjudge, hitem⟩, rfl⟩
    exact ⟨⟨hjudge, hitem⟩, rfl⟩
  · rintro ⟨⟨hjudge, hitem⟩, hc⟩
    exact ⟨c.item, mem_itemsOf_of_mem_itemsFor hitem, c.judge, ⟨hjudge, hitem⟩, hc⟩

theorem nodup_rowLines (s : Sheet) (w : Window) : ((s.rowLines w).flatten.map Cell.place).Nodup := by
  rw [rowLines, ← List.flatMap_def, List.map_flatMap, List.nodup_flatMap]
  refine ⟨fun judge _ => ?_, List.nodup_range.imp fun {j k} hne => ?_⟩
  · rw [List.map_map]
    exact (List.nodup_range' 1).map fun i i' h => (Prod.ext_iff.1 h).2
  · -- a line holds the cells of one judge
    simp only [Function.onFun, List.disjoint_left, List.mem_map, exists_exists_and_eq_and]
    rintro p ⟨i, -, rfl⟩ ⟨i', -, h⟩
    exact hne (Prod.ext_iff.1 h).1.symm

theorem nodup_columnLines (s : Sheet) (w : Window) : ((s.columnLines w).flatten.map Cell.place).Nodup := by
  rw [columnLines, ← List.flatMap_def, List.map_flatMap, List.nodup_flatMap]
  refine ⟨fun item _ => ?_, (List.nodup_range' 1).imp fun {i i'} hne => ?_⟩
  · rw [List.map_map]
    exact (List.nodup_range.filter _).map fun j j' h => (Prod.ext_iff.1 h).1
  · -- a line holds the cells of one item
    simp only [Function.onFun, List.disjoint_left, List.mem_map, exists_exists_and_eq_and]
    rintro p ⟨j, -, rfl⟩ ⟨j', -, h⟩
    exact hne (Prod.ext_iff.1 h).2.symm

end Sheet

namespace Direction

theorem mem_lines (d : Direction) {s : Sheet} {w : Window} {c : Cell} :
    c ∈ (d.lines s w).flatten ↔ s.Has w c.judge c.item ∧ s.cell c.judge c.item = c := by
  cases d with
  | rows => exact Sheet.mem_rowLines
  | columns => exact Sheet.mem_columnLines

theorem nodup_lines (d : Direction) (s : Sheet) (w : Window) : ((d.lines s w).flatten.map Cell.place).Nodup := by
  cases d with
  | rows => exact s.nodup_rowLines w
  | columns => exact s.nodup_columnLines w

/-- **Lines of judges and lines of items cover the same cells**, with the same marks at the same positions.  Each cell
stands in one line, and those that do are the cells that the window has, a missing mark being zero. -/
theorem perm_lines (s : Sheet) (w : Window) :
    (rows.lines s w).flatten.Perm (columns.lines s w).flatten ∧ ∀ d : Direction,
      ((d.lines s w).flatten.map Cell.place).Nodup ∧
        ∀ judge item mark, ⟨judge, item, mark⟩ ∈ (d.lines s w).flatten ↔
          s.Has w judge item ∧ mark = ((s.rows[judge]?.getD [])[item]?).getD 0 := by
  have hnodup : ∀ d : Direction, (d.lines s w).flatten.Nodup := fun d => (d.nodup_lines s w).of_map _
  refine ⟨?_, fun d => ⟨d.nodup_lines s w, fun judge item mark => ?_⟩⟩
  · refine (List.perm_ext_iff_of_nodup (hnodup rows) (hnodup columns)).2 fun c => ?_
    rw [mem_lines, mem_lines]
  · rw [mem_lines, Sheet.cell, Cell.mk.injEq]
    simp only [true_and, eq_comm]

end Direction
end Scoresheet
