import Scoresheet.Text.Name

/-!
# Dialects

Formulas come in three dialects.  An item expression changes one mark `x` at position `i`; an aggregate expression
changes one aggregate `m`; a formula computes an entry from all others.  The first two see numbers only: no calls, no
containers, no names but their own.
-/
namespace Scoresheet

inductive Dialect where
  | item
  | aggregate
  | formula
deriving DecidableEq

namespace Dialect

/-- What messages call the dialect. -/
def label : Dialect → String
  | .item => "item expression"
  | .aggregate => "post-aggregation expression"
  | .formula => "formula"

/-- What a blank source stands for: the mark or aggregate itself, or zero. -/
def blankSource : Dialect → String
  | .item => "x"
  | .aggregate => "m"
  | .formula => "0"

/-- The names that a source may use. -/
def allowsName : Dialect → String → Bool
  | .item, s => s == "x" || s == "i"
  | .aggregate, s => s == "m"
  | .formula, s => Text.isSafeName s

/-- Whether the dialect has calls, containers, subscripts and `None`. -/
def isFull : Dialect → Bool
  | .formula => true
  | _ => false

end Dialect

end Scoresheet
