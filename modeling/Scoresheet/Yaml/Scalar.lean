import Scoresheet.Score.Literal
import Scoresheet.Text.Blank
import Scoresheet.Value

/-!
# Words of YAML

The marks that set words apart from the rest, and what a word without quotes stands for: nothing, a truth value, a
number, or itself.  Capitals do not matter in the words for nothing and for truth values.  Whole numbers may be written
in four bases and with underscores.
-/
namespace Scoresheet.Yaml

/-- The marks that never start a word without quotes. -/
def indicators : List Char :=
  [',', '[', ']', '\x7b', '\x7d', '#', '&', '*', '!', '|', '>', '\x27', '"', '%', '@', '\x60']

/-- The characters that are written as a letter behind a backslash, each after its letter. -/
def letters : List (Char × Char) :=
  [('\\', '\\'), ('"', '"'), ('0', '\x00'), ('a', '\x07'), ('b', '\x08'), ('t', '\t'), ('n', '\n'), ('v', '\x0b'),
   ('f', '\x0c'), ('r', '\r'), ('e', '\x1b'), ('N', '\u0085'), ('L', '\u2028'), ('P', '\u2029')]

/-- A word in small letters. -/
def small (s : String) : String := String.ofList (s.toList.map Char.toLower)

/-- The words for nothing. -/
def isNull (s : String) : Bool := ["", "~", "null"].contains (small s)

/-- The truth value that a word names. -/
def truth? (s : String) : Option Bool :=
  if ["true", "yes", "y", "on"].contains (small s) then some true
  else if ["false", "no", "n", "off"].contains (small s) then some false
  else none

/-! ## Numbers -/

/-- The base that a mark at the front names, and the digits. -/
def splitBase : List Char → Nat × List Char
  | '0' :: mark :: ds =>
    match mark.toLower with
    | 'x' => (16, ds)
    | 'o' => (8, ds)
    | 'b' => (2, ds)
    | _ => (10, '0' :: mark :: ds)
  | ds => (10, ds)

/-- The natural that digits denote, in the base that they name; underscores do not count. -/
def natural? (cs : List Char) : Option Nat := naturalIn? (splitBase cs).1 ((splitBase cs).2.filter (· != '_'))

/-- The largest whole number that is told apart from all others, and the largest below zero. -/
def maxWhole : Nat := 18446744073709551615
def maxNegative : Nat := 9223372036854775808

/-- A whole number; zero has no sign. -/
def whole? (cs : List Char) : Option Score :=
  let (negative, ds) := splitSign cs
  (natural? ds).bind fun n =>
    if n ≤ (if negative then maxNegative else maxWhole) then
      some (if n = 0 then 0 else if negative then -Score.ofDecimal n 0 else Score.ofDecimal n 0)
    else none

/-- A number that is not finite. -/
def unbounded? (cs : List Char) : Option Score :=
  let (negative, word) := splitSign (cs.map Char.toLower)
  if word == ['.', 'i', 'n', 'f'] then some (if negative then -Score.infinity else Score.infinity)
  else if word == ['.', 'n', 'a', 'n'] then some Score.nan
  else none

/-- The number that a word denotes. -/
def number? (s : String) : Option Score :=
  let (negative, magnitude) := splitSign s.toList
  whole? s.toList <|> unbounded? s.toList <|>
    (Score.ofUnsigned? magnitude).map fun a => if negative then -a else a

/-- The value that a word without quotes stands for.  No value is a number that is not finite. -/
def wordValue (s : String) : Value :=
  if isNull s then .null
  else match truth? s with
    | some b => .bool b
    | none =>
      match number? s with
      | some n => if n.isFinite then .number n else .null
      | none => .text s

/-! ## Words that look like numbers -/

def isDigitOrGap (c : Char) : Bool := isDigit c || c == '_'

/-- Digits, a point, digits and an exponent, of which all but some digits may be missing. -/
def looksDecimal (cs : List Char) : Bool :=
  let whole := cs.takeWhile isDigitOrGap
  let rest := cs.dropWhile isDigitOrGap
  let (fraction, tail) := match rest with
    | '.' :: more => (more.takeWhile isDigitOrGap, more.dropWhile isDigitOrGap)
    | _ => ([], rest)
  (whole ++ fraction).any isDigit && match tail with
    | [] => true
    | e :: more =>
      let digits := (splitSign more).2
      e.toLower == 'e' && digits.any isDigit && digits.all isDigitOrGap

/-- Whether a word could be taken for a number. -/
def looksNumeric (s : String) : Bool :=
  let cs := (splitSign s.toList).2
  (natural? cs).isSome || (unbounded? s.toList).isSome || looksDecimal cs

end Scoresheet.Yaml
