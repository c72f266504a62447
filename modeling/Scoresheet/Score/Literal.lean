import Scoresheet.Score

/-!
# Reading numbers

The texts that denote a number: an optional sign, then `inf`, `infinity` or `nan` in any case, or decimal digits with
an optional point and exponent, at least one digit before the exponent.  No blanks, no separators.  The value is
rounded correctly.
-/
namespace Scoresheet

/-- An ASCII digit. -/
def isDigit (c : Char) : Bool := decide ('0' ≤ c ∧ c ≤ '9')

/-- The natural that a string of digits denotes. -/
def digitsValue (ds : List Char) : Nat := ds.foldl (fun n d => 10 * n + (d.toNat - '0'.toNat)) 0

/-- The value of a digit in a base of at most sixteen. -/
def digitIn? (base : Nat) (c : Char) : Option Nat :=
  let value :=
    if '0' ≤ c ∧ c ≤ '9' then c.toNat - '0'.toNat
    else if 'a' ≤ c ∧ c ≤ 'f' then c.toNat - 'a'.toNat + 10
    else if 'A' ≤ c ∧ c ≤ 'F' then c.toNat - 'A'.toNat + 10
    else base
  if value < base then some value else none

/-- The natural that digits in a base denote; no digit at all denotes none. -/
def naturalIn? (base : Nat) (ds : List Char) : Option Nat :=
  if ds.isEmpty then none else (ds.mapM (digitIn? base)).map (·.foldl (fun n d => base * n + d) 0)

/-- How many hexadecimal digits name a character behind a letter. -/
def codeWidth? (letter : Char) : Option Nat :=
  if letter = 'x' then some 2 else if letter = 'u' then some 4 else if letter = 'U' then some 8 else none

/-- An optional sign, and what follows it. -/
def splitSign : List Char → Bool × List Char
  | '-' :: cs => (true, cs)
  | '+' :: cs => (false, cs)
  | cs => (false, cs)

namespace Score

/-- Beyond this power of ten a number is infinite, and below its negative it is zero. -/
def farPower : Int := 400

/-- `mantissa · 10 ^ power`, rounded to the nearest double.  Numbers that are far too large or too small are told by
their powers alone. -/
def ofDecimal (mantissa : Nat) (power : Int) : Score :=
  if mantissa = 0 then 0
  else if farPower < power then infinity
  else if power + mantissa.log2 + 1 < -farPower then 0
  else .number (Float.ofScientific mantissa (decide (power < 0)) power.natAbs)

/-- The exponent part of a literal: nothing, or `e` with an optional sign and at least one digit. -/
def exponent? : List Char → Option Int
  | [] => some 0
  | c :: cs =>
    if c == 'e' || c == 'E' then
      let (negative, ds) := splitSign cs
      if !ds.isEmpty && ds.all isDigit then
        some (if negative then -(digitsValue ds : Int) else digitsValue ds)
      else none
    else none

/-- The value of an unsigned decimal literal. -/
def ofUnsigned? (cs : List Char) : Option Score :=
  let whole := cs.takeWhile isDigit
  let rest := cs.dropWhile isDigit
  let (fraction, tail) := match rest with
    | '.' :: more => (more.takeWhile isDigit, more.dropWhile isDigit)
    | _ => ([], rest)
  if whole.isEmpty && fraction.isEmpty then none
  else (exponent? tail).map fun e =>
    ofDecimal (digitsValue (whole ++ fraction)) (e - fraction.length)

/-- The value of a text that denotes a number, blanks not admitted. -/
def ofText? (s : String) : Option Score :=
  let (negative, cs) := splitSign s.toList
  let word := cs.map Char.toLower
  let magnitude :=
    if word == ['i', 'n', 'f'] || word == ['i', 'n', 'f', 'i', 'n', 'i', 't', 'y'] then some infinity
    else if word == ['n', 'a', 'n'] then some nan
    else ofUnsigned? cs
  magnitude.map fun a => if negative then -a else a

end Score

end Scoresheet
