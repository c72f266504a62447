import Scoresheet.Score

/-!
# Routines

A trampoline routine is a fixed number of elements.  Each judge deducts tenths from every element; a crash ends the
routine before the element it happens at.
-/
namespace Scoresheet

namespace Routine

/-- Only the first ten elements earn a base point. -/
def baseElements : Nat := 10

/-- The deductions of the elements, kept between zero and ten; an element without one is clean. -/
def deductions (elements : Nat) (given : List Score) : List Score :=
  (List.range elements).map fun i => Score.clamp 0 10 (given[i]?.getD 0)

/-- How many elements count.  The crash position counts from one, and zero means that there was none. -/
def counted (elements : Nat) (crash : Int) : Nat :=
  if 0 < crash then min (crash - 1).toNat elements else elements

/-- The execution score of one judge. -/
def execution (elements : Nat) (crash : Int) (given : List Score) : Score :=
  let k := counted elements crash
  Score.ofNat (min k baseElements) - Score.sum ((deductions elements given).take k) / 10

end Routine

end Scoresheet
