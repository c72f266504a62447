import Scoresheet.Score.Literal
import Scoresheet.Text.Blank
import Scoresheet.Text.Letters
import Scoresheet.Text.Pattern

/-!
# Log filters

Whether a text is a log filter, as the plain toolkit checks it: directives between commas, each a level, a target with
an optional level after an equals sign, or a span in brackets with an optional field in braces, which may have a value:
a number or a pattern.

A directive is read without the blanks around it, yet its parts are cut out of it as it was given, by positions in
bytes.  So blanks before a directive shift its parts, and a part may start or end inside a character.
-/
namespace Scoresheet

namespace LogFilter

/-- What can be wrong with a filter. -/
inductive Flaw where
  | malformed
  /-- A part starts or ends inside a character. -/
  | splitCharacter
deriving DecidableEq

/-! ## Parts -/

/-- The characters after so many bytes. -/
def dropBytes? : Nat → List Char → Option (List Char)
  | 0, cs => some cs
  | _ + 1, [] => none
  | n + 1, c :: cs => if c.utf8Size ≤ n + 1 then dropBytes? (n + 1 - c.utf8Size) cs else none

/-- The characters within so many bytes. -/
def takeBytes? : Nat → List Char → Option (List Char)
  | 0, _ => some []
  | _ + 1, [] => none
  | n + 1, c :: cs => if c.utf8Size ≤ n + 1 then (takeBytes? (n + 1 - c.utf8Size) cs).map (c :: ·) else none

/-- The part between two positions. -/
def part (given : List Char) (start stop : Nat) : Except Flaw (List Char) :=
  match (dropBytes? start given).bind (takeBytes? (stop - start)) with
  | some cs => .ok cs
  | none => .error .splitCharacter

/-- The part from a position on. -/
def partFrom (given : List Char) (start : Nat) : Except Flaw (List Char) :=
  match dropBytes? start given with
  | some cs => .ok cs
  | none => .error .splitCharacter

/-- The names of the levels. -/
def levels : List String := ["error", "warn", "info", "debug", "trace", "off"]

/-- A level by name or by number. -/
def isLevel (cs : List Char) : Bool :=
  let digits := match cs with
    | '+' :: ds => ds
    | ds => ds
  levels.contains (String.ofList (cs.map Char.toLower)) ||
    (!digits.isEmpty && digits.all isDigit && decide (digitsValue digits ≤ 5))

/-- A field: a name, and after an equals sign a number or a pattern.  What stands after a second equals sign does not
count. -/
def isField (cs : List Char) : Bool :=
  !cs.isEmpty && match cs.splitOn '=' with
    | _ :: value :: _ => (Score.ofText? (String.ofList value)).isSome || Text.isPattern value
    | _ => true

/-! ## Directives -/

/-- What of a directive is being read; numbers are positions where a part starts. -/
inductive State where
  | start
  | target
  | span (start : Nat)
  | field (start : Nat)
  | fields
  | afterSpan
  | level (start : Nat)
deriving DecidableEq

/-- The state after one more character, which stands at a position. -/
def step (given : List Char) (state : State) (position : Nat) (c : Char) : Except Flaw State :=
  match state with
  | .start =>
    if c = '[' then .ok (.span (position + 1))
    else if c = '-' || c = ':' || c = '_' || Text.isWordChar c then .ok .target
    else .error .malformed
  | .target =>
    if c = '=' then (part given 0 position).map fun _ => .level (position + 1)
    else if c = '[' then (part given 0 position).map fun _ => .span (position + 1)
    else .ok .target
  | .span start =>
    if c = ']' then (part given start position).map fun _ => .afterSpan
    else if c = '\x7b' then (part given start position).map fun _ => .field (position + 1)
    else .ok (.span start)
  | .field start =>
    if c = '\x7d' then
      (part given start position).bind fun cs => if isField cs then .ok .fields else .error .malformed
    else .ok (.field start)
  | .fields => if c = ']' then .ok .afterSpan else .error .malformed
  | .afterSpan => if c = '=' then .ok (.level (position + 1)) else .error .malformed
  | .level start => .ok (.level start)

/-- What is wrong with a directive that ends in a state. -/
def finish (given : List Char) : State → Except Flaw Unit
  | .target => .ok ()
  | .afterSpan => .ok ()
  | .level start =>
    (partFrom given start).bind fun cs => if cs.isEmpty || isLevel cs then .ok () else .error .malformed
  | _ => .error .malformed

/-- The state after further characters, the first of which stands at a position. -/
def run (given : List Char) (state : State) (position : Nat) : List Char → Except Flaw State
  | [] => .ok state
  | c :: cs => (step given state position c).bind fun state => run given state (position + c.utf8Size) cs

/-- What is wrong with a directive. -/
def directive (given : List Char) : Except Flaw Unit := (run given .start 0 (Text.trimChars given)).bind (finish given)

/-- What is wrong with a filter: the first flaw of a directive. -/
def check (s : String) : Except Flaw Unit :=
  ((s.toList.splitOn ',').filter fun d => !d.isEmpty).forM directive

end LogFilter

end Scoresheet
