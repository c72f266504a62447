import Scoresheet.Error
import Scoresheet.Value

/-!
# Arguments

The arguments of a call, each in the slot of its parameter.  Positional arguments fill the slots from the left and
keywords fill theirs by name; no slot is filled twice.  An argument that is null counts as not given, except where the
parameter is required.
-/
namespace Scoresheet

/-- The parameters of a function in order, each with what it is bound to. -/
abbrev Slots := List (String × Option Value)

structure Arguments where
  function : Function
  slots : Slots

namespace Slots

/-- The slots of the given parameters with the positional arguments in the first of them. -/
def fill : List String → List Value → Slots
  | [], _ => []
  | p :: ps, [] => (p, none) :: fill ps []
  | p :: ps, v :: vs => (p, some v) :: fill ps vs

/-- What the slot of a parameter holds; `none` where there is no such parameter. -/
def slot? (slots : Slots) (parameter : String) : Option (Option Value) :=
  (slots.find? fun s => s.1 == parameter).map (·.2)

/-- A value put into the slot of a parameter. -/
def set (slots : Slots) (parameter : String) (v : Value) : Slots :=
  slots.map fun s => if s.1 == parameter then (s.1, some v) else s

end Slots

namespace Arguments

/-- One keyword put into its slot. -/
def bindKeyword (f : Function) (slots : Slots) (keyword : String × Value) : Result Slots :=
  match slots.slot? keyword.1 with
  | none => .error (.formula (.unexpectedKeyword f keyword.1))
  | some (some _) => .error (.formula (.boundTwice f keyword.1))
  | some none => .ok (slots.set keyword.1 keyword.2)

/-- The arguments of a call of `f`. -/
def bind (f : Function) (positional : List Value) (keywords : List (String × Value)) : Result Arguments :=
  if f.parameters.length < positional.length then .error (.formula (.tooManyArguments f positional.length))
  else (keywords.foldlM (bindKeyword f) (Slots.fill f.parameters positional)).map fun slots => ⟨f, slots⟩

/-- The argument given for a parameter, null or not. -/
def given? (a : Arguments) (parameter : String) : Option Value := (a.slots.slot? parameter).join

/-- The argument of a parameter; null counts as not given. -/
def get? (a : Arguments) (parameter : String) : Option Value :=
  (a.given? parameter).filter fun v => !v.isNull

/-- The argument of a parameter that must be given, null or not. -/
def required (a : Arguments) (parameter : String) : Result Value :=
  match a.given? parameter with
  | some v => .ok v
  | none => .error (.formula (.missingArgument a.function parameter))

/-- A text argument, or the default where none is given. -/
def textOr (a : Arguments) (parameter default : String) : Result String :=
  match a.get? parameter with
  | none => .ok default
  | some (.text s) => .ok s
  | some v => .error (.type (.textArgument a.function parameter v.kind))

/-- A whole-number argument, read from any value. -/
def int? (a : Arguments) (parameter : String) : Option Int := (a.get? parameter).map Value.toInt

end Arguments

end Scoresheet
