import Scoresheet.Document
import Scoresheet.Score.Text

/-!
# Writing JSON

The text of a document, two blanks further in on every level.  Quotes, backslashes and control characters are escaped;
every other character stands for itself.
-/
namespace Scoresheet

namespace Json

/-- A hexadecimal digit. -/
def hexDigit (n : Nat) : Char := (Nat.toDigits 16 n).head?.getD '0'

/-- A character as it stands in a quoted text. -/
def escaped (c : Char) : List Char :=
  match c with
  | '"' => ['\\', '"']
  | '\\' => ['\\', '\\']
  | '\x08' => ['\\', 'b']
  | '\x0c' => ['\\', 'f']
  | '\n' => ['\\', 'n']
  | '\r' => ['\\', 'r']
  | '\t' => ['\\', 't']
  | c =>
    if c.toNat < 0x20 then ['\\', 'u', '0', '0', hexDigit (c.toNat / 16), hexDigit (c.toNat % 16)] else [c]

def quoted (s : String) : String := "\"" ++ String.ofList (s.toList.flatMap escaped) ++ "\""

/-- A finite number with the fewest digits. -/
def numberText (n : Score) : String := NumberStyle.document.finiteText n.toFloat

/-- The start of a line. -/
def indentation (level : Nat) : String := "\n" ++ String.ofList (List.replicate (2 * level) ' ')

/-- Parts one to a line between an opening and a closing mark. -/
def block (level : Nat) (opening closing : String) (parts : List String) : String :=
  if parts.isEmpty then opening ++ closing
  else
    let start := indentation (level + 1)
    opening ++ start ++ ("," ++ start).intercalate parts ++ indentation level ++ closing

mutual

/-- The text of a document that stands on a level. -/
def render (level : Nat) : Document → String
  | .null => "null"
  | .bool b => if b then "true" else "false"
  | .whole n => toString n
  | .number n => numberText n
  | .text s => quoted s
  | .list ds => block level "[" "]" (renderAll (level + 1) ds)
  | .object es => block level "\x7b" "\x7d" (renderEntries (level + 1) es)

def renderAll (level : Nat) : List Document → List String
  | [] => []
  | d :: ds => render level d :: renderAll level ds

def renderEntries (level : Nat) : List (String × Document) → List String
  | [] => []
  | (k, d) :: es => (quoted k ++ ": " ++ render level d) :: renderEntries level es

end

/-- The text of a document. -/
def print (d : Document) : String := render 0 d

end Json

end Scoresheet
