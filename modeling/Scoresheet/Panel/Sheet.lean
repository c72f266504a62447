import Scoresheet.Score

/-!
# Sheets of a panel

The marks of a panel as a row per judge, with a bound on the items and the position at which each judge saw a crash.
A window is a run of items; a crash ends it early for the judge who saw it.  A reduction takes the cells of a window
row by row or column by column, and both ways see the same cells.
-/
namespace Scoresheet

/-- The marks of a panel.  Rows may be of any length: a missing cell is zero and one beyond the bound is not seen.
Crash positions count from one, and zero means none. -/
structure Sheet where
  rows : List (List Score)
  items : Nat
  crashes : List Int

/-- A run of items: from which one on, and how many at most. -/
structure Window where
  start : Nat
  count : Option Nat
deriving DecidableEq

/-- The mark of one judge for one item. -/
structure Cell where
  judge : Nat
  item : Nat
  mark : Score
deriving DecidableEq

namespace Sheet

/-- The first item of a window. -/
def first (s : Sheet) (w : Window) : Nat := min w.start s.items

/-- The item at which a window stops. -/
def stop (s : Sheet) (w : Window) : Nat :=
  match w.count with
  | none => s.items
  | some count => min (s.first w + count) s.items

/-- The item at which a window stops for one judge. -/
def stopFor (s : Sheet) (w : Window) (judge : Nat) : Nat :=
  let crash := s.crashes[judge]?.getD 0
  if 0 < crash then min (s.stop w) (crash - 1).toNat else s.stop w

/-- The items of a window that count for one judge. -/
def itemsFor (s : Sheet) (w : Window) (judge : Nat) : List Nat :=
  List.range' (s.first w) (s.stopFor w judge - s.first w)

/-- The items of a window, whether they count for any judge or not. -/
def itemsOf (s : Sheet) (w : Window) : List Nat := List.range' (s.first w) (s.stop w - s.first w)

def cell (s : Sheet) (judge item : Nat) : Cell :=
  ⟨judge, item, ((s.rows[judge]?.getD [])[item]?).getD 0⟩

/-- The cells of a window, a line per judge. -/
def rowLines (s : Sheet) (w : Window) : List (List Cell) :=
  (List.range s.rows.length).map fun judge => (s.itemsFor w judge).map (s.cell judge)

/-- The cells of a window, a line per item. -/
def columnLines (s : Sheet) (w : Window) : List (List Cell) :=
  (s.itemsOf w).map fun item =>
    ((List.range s.rows.length).filter fun judge => (s.itemsFor w judge).contains item).map fun judge =>
      s.cell judge item

/-- The length of the longest row, as a bound for sheets that declare none. -/
def widest (rows : List (List Score)) : Nat := rows.foldl (fun n row => max n row.length) 0

end Sheet

end Scoresheet
