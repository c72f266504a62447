import Scoresheet.Json.Printer
import Scoresheet.Yaml.Scalar

/-!
# Writing YAML

The text of a document in block style.  Each level is two blanks further in, and the first entry of an object in a list
stands on the line of its dash.  A text is plain where it means itself without quotes.  Such a text of several lines
keeps its lines, under a bar; a long line is folded under an angle.  Every other text is quoted.
-/
namespace Scoresheet

namespace Yaml

/-! ## Plain texts -/

/-- The marks that mean something at the start of a plain text where a blank or nothing follows them. -/
def separators : List Char := ['-', '?', ':']

/-- A control character. -/
def isControl (c : Char) : Bool := decide (c.toNat < 0x20) || decide (0x7f ≤ c.toNat ∧ c.toNat ≤ 0x9f)

/-- Whether the first character of a plain text means more than itself. -/
def startsMark : List Char → Bool
  | [] => true
  | [c] => c == ' ' || indicators.contains c || separators.contains c
  | c :: d :: _ => c == ' ' || indicators.contains c || (separators.contains c && d == ' ')

/-- Whether a plain text would be read as a key: a colon before a blank or at the end. -/
def endsKey : List Char → Bool
  | [] => false
  | [c] => c == ':'
  | c :: d :: rest => (c == ':' && d == ' ') || endsKey (d :: rest)

/-- Whether a text means itself line by line: it is no word for something else, and no character of it but a line break
could end it or has to be escaped. -/
def isPlainBlock (s : String) : Bool :=
  let cs := s.toList.filter (· != '\n')
  let word := String.ofList cs
  !isNull word && (truth? word).isNone && !looksNumeric word && !startsMark cs &&
    cs.all fun c => c != '#' && !isControl c

/-- Marks that never stand alone. -/
def loneMarks : List String := ["-", "#", "."]

/-- Whether a text on one line means itself without quotes. -/
def isPlain (s : String) : Bool :=
  isPlainBlock s && !endsKey s.toList && !s.toList.contains '\n' && !loneMarks.contains s

/-! ## Quoted texts -/

/-- A number in hexadecimal with capitals, at least so many digits wide. -/
def hexText (width n : Nat) : List Char :=
  let digits := (Nat.toDigits 16 n).map Char.toUpper
  List.replicate (width - digits.length) '0' ++ digits

/-- A character as it stands between double quotes. -/
def escaped (c : Char) : List Char :=
  match letters.find? fun p => p.2 == c with
  | some p => ['\\', p.1]
  | none =>
    if c == '\ufeff' then '\\' :: 'u' :: hexText 4 c.toNat
    else if isControl c then '\\' :: 'x' :: hexText 2 c.toNat
    else [c]

/-- A text between quotes: a lone mark between single ones. -/
def quoted (s : String) : String :=
  if loneMarks.contains s then "'" ++ s ++ "'"
  else "\"" ++ String.ofList (s.toList.flatMap escaped) ++ "\""

def textScalar (s : String) : String := if isPlain s then s else quoted s

/-! ## Texts on lines of their own -/

/-- The count of characters with which a line is broken. -/
def foldWidth : Nat := 80

/-- The lines of a text, each broken at its last blank.  `line` is what stands before that blank and `tail` what stands
after it, both last character first; `count` is the count of characters since the last break was made, wherever in the
text that was. -/
def foldLines (count : Nat) (line : Option (List Char)) (tail : List Char) : List Char → List String
  | [] =>
    let last := String.ofList (joined line tail).reverse
    if last.isEmpty then [] else [last]
  | c :: rest =>
    let (line, tail) := if c == ' ' then (some (joined line tail), []) else (line, c :: tail)
    if count < foldWidth then foldLines (count + 1) line tail rest
    else match line with
      | some whole => String.ofList whole.reverse :: foldLines 0 none tail rest
      | none => foldLines (count + 1) none tail rest
where
  joined (line : Option (List Char)) (tail : List Char) : List Char :=
    match line with
    | none => tail
    | some before => tail ++ ' ' :: before

/-- How many line breaks a text ends in. -/
def finalBreaks (cs : List Char) : Nat := (cs.reverse.takeWhile (· == '\n')).length

/-- What stands after the bar: the line break at the end is dropped, kept, or kept with those after it. -/
def barFor (breaks : Nat) : String :=
  match breaks with
  | 0 => "|-"
  | 1 => "|"
  | _ => "|+"

/-- The lines of a text under a bar. -/
def barLines (cs : List Char) : List String :=
  let breaks := finalBreaks cs
  ((cs.take (cs.length - breaks)).splitOn '\n').map String.ofList ++ List.replicate (breaks - 1) ""

/-! ## Documents -/

/-- Lines moved two blanks in. -/
def indent (lines : List String) : List String := lines.map ("  " ++ ·)

/-- Lines after a dash. -/
def dashed : List String → List String
  | [] => ["-"]
  | first :: rest => ("- " ++ first) :: indent rest

/-- What stands after a key: a short text on the same line, a mark on the same line with lines under it, or lines of its
own. -/
inductive Body where
  | inline (text : String)
  | headed (mark : String) (lines : List String)
  | block (lines : List String)

def textBody (s : String) : Body :=
  let cs := s.toList
  if isPlain s && foldWidth < cs.length then .headed ">-" (foldLines 0 none [] cs)
  else if isPlainBlock s && cs.contains '\n' then .headed (barFor (finalBreaks cs)) (barLines cs)
  else .inline (textScalar s)

mutual

def body : Document → Body
  | .null => .inline "null"
  | .bool b => .inline (if b then "true" else "false")
  | .whole n => .inline (toString n)
  | .number n => .inline (NumberStyle.blockDocument.finiteText n.toFloat)
  | .text s => textBody s
  | .list ds => if ds.isEmpty then .inline "[]" else .block (itemLines ds)
  | .object es => if es.isEmpty then .inline "\x7b\x7d" else .block (entryLines es)

def itemLines : List Document → List String
  | [] => []
  | d :: ds =>
    (match body d with
      | .inline text => ["- " ++ text]
      | .headed mark lines => ("- " ++ mark) :: indent lines
      | .block lines => dashed lines) ++ itemLines ds

def entryLines : List (String × Document) → List String
  | [] => []
  | (k, d) :: es =>
    (match body d with
      | .inline text => [textScalar k ++ ": " ++ text]
      | .headed mark lines => (textScalar k ++ ": " ++ mark) :: indent lines
      | .block lines => (textScalar k ++ ":") :: indent lines) ++ entryLines es

end

/-- The text of a document. -/
def print (d : Document) : String :=
  match body d with
  | .inline text => text
  | .headed mark lines => "\n".intercalate (mark :: indent lines)
  | .block lines => "\n".intercalate lines

end Yaml

end Scoresheet
