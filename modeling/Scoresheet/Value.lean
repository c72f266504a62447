import Scoresheet.Score.Literal
import Scoresheet.Text.Blank

/-!
# Values

What flows through a score sheet: raw inputs, parameters, and everything a formula computes.  Reading a number out of
a value never fails: whatever is no number counts as zero, so that one malformed mark does not void a whole sheet.
-/
namespace Scoresheet

/-- A null, a truth value, a number, a text, a list, or a map with its entries in increasing order of their keys. -/
inductive Value where
  | null
  | bool (b : Bool)
  | number (n : Score)
  | text (s : String)
  | list (items : List Value)
  | map (entries : List (String × Value))

namespace Value

instance : Inhabited Value := ⟨.null⟩

/-- The word for the kind of a value in messages. -/
def kind : Value → String
  | .null => "null"
  | .bool _ => "bool"
  | .number _ => "number"
  | .text _ => "string"
  | .list _ => "list"
  | .map _ => "dict"

/-- The number that a text denotes once blanks around it are taken off. -/
def textScore? (s : String) : Option Score := Score.ofText? (Text.trim s)

/-- The number in a value: a truth value counts as one or zero, a text as the number it denotes, and all else as
zero. -/
def toScore : Value → Score
  | .number n => n
  | .bool b => Score.ofBool b
  | .text s => (textScore? s).getD 0
  | _ => 0

/-- The number that arithmetic sees: numbers and truth values only. -/
def number? : Value → Option Score
  | .number n => some n
  | .bool b => some (Score.ofBool b)
  | _ => none

def text? : Value → Option String
  | .text s => some s
  | _ => none

/-- The items of a list; anything else has none. -/
def items : Value → List Value
  | .list xs => xs
  | _ => []

/-- The entries of a map; anything else has none. -/
def entries? : Value → Option (List (String × Value))
  | .map es => some es
  | _ => none

def isNull : Value → Bool
  | .null => true
  | _ => false

/-- The numbers in a list, each read by `toScore`. -/
def scores (v : Value) : List Score := v.items.map toScore

/-- The whole number in a value, toward zero. -/
def toInt (v : Value) : Int := v.toScore.toInt

/-- A list of numbers. -/
def ofScores (xs : List Score) : Value := .list (xs.map .number)

/-- Neither null, nor false, nor zero, nor empty. -/
def isTruthy : Value → Bool
  | .null => false
  | .bool b => b
  | .number n => !n.isZero
  | .text s => !s.isEmpty
  | .list xs => !xs.isEmpty
  | .map es => !es.isEmpty

mutual

/-- The numbers of a list with all its nested lists, in order; any other value is one number. -/
def leaves : Value → List Score
  | .list xs => leavesOfAll xs
  | v => [v.toScore]

def leavesOfAll : List Value → List Score
  | [] => []
  | x :: xs => leaves x ++ leavesOfAll xs

end

@[simp] theorem scores_ofScores (xs : List Score) : (ofScores xs).scores = xs := by
  simp [ofScores, scores, items, toScore, Function.comp_def]

end Value

end Scoresheet
