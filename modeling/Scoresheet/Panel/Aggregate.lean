import Scoresheet.Panel.Selection

/-!
# Aggregates

How marks become one number.  Every aggregate of no marks is zero.
-/
namespace Scoresheet

/-- The median of marks in any order. -/
def median (marks : List Score) : Score :=
  (Criterion.middle? id (Criterion.ascending id marks)).getD 0

inductive Aggregate where
  | sum | product | mean | least | greatest | median
deriving DecidableEq

namespace Aggregate

/-- The aggregate of a name.  Blanks around the name do not matter. -/
def ofName (name : String) : Except SelectionFault Aggregate :=
  match Text.trim name with
  | "sum" => .ok .sum
  | "prod" => .ok .product
  | "avg" => .ok .mean
  | "min" => .ok .least
  | "max" => .ok .greatest
  | "med" => .ok .median
  | other => .error (.unknownAggregate other)

/-- The aggregate of marks. -/
def apply (a : Aggregate) (marks : List Score) : Score :=
  if marks.isEmpty then 0
  else match a with
    | .sum => Score.sum marks
    | .product => Score.product marks
    | .mean => Score.sum marks / Score.ofNat marks.length
    | .least => marks.foldl Score.min Score.infinity
    | .greatest => marks.foldl Score.max Score.negativeInfinity
    | .median => Scoresheet.median marks

end Aggregate

end Scoresheet
