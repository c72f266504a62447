import Scoresheet.Score.Decimal

/-!
# Numbers as text

Four ways to write a score.  Messages and number keys write the fewest digits and never an exponent; documents write
the fewest digits, keep `.0` on whole numbers and use an exponent outside `10 ^ -5 … 10 ^ 16`, before which block
documents keep the `.0` as well; tables write a fixed number of decimal places.
-/
namespace Scoresheet

/-- How the shortest digits of a number are laid out. -/
structure NumberStyle where
  /-- Which of two equally near candidates is written. -/
  tie : Tie
  /-- Whether a number whose leading digit has this power of ten is written without an exponent. -/
  positional : Int → Bool
  /-- Whether whole numbers end in `.0`. -/
  keepsPoint : Bool
  /-- Whether a single digit before an exponent is followed by `.0`. -/
  pointsMantissa : Bool
  /-- What stands before a positive exponent. -/
  plus : String

namespace NumberStyle

/-- The style of messages and of number keys: positional whatever the size, whole numbers without a point, and a tie
between two shortest candidates goes up. -/
def plain : NumberStyle := ⟨.up, fun _ => true, false, false, ""⟩

/-- The style of documents: positional from `10 ^ -5` to below `10 ^ 16`, otherwise an exponent with its sign. -/
def document : NumberStyle := ⟨.toEven, fun e => decide (-5 ≤ e ∧ e < 16), true, false, "+"⟩

/-- The style of block documents: that of documents, with a point before every exponent. -/
def blockDocument : NumberStyle := { document with pointsMantissa := true }

/-- A digit string with the point after the digit of power zero. -/
def positionalText (keepsPoint : Bool) (digits : List Char) (power : Int) : List Char :=
  if power < 0 then
    '0' :: '.' :: List.replicate (-power - 1).toNat '0' ++ digits
  else
    let width := power.toNat + 1
    let whole := digits.take width ++ List.replicate (width - digits.length) '0'
    match digits.drop width with
    | [] => if keepsPoint then whole ++ ['.', '0'] else whole
    | fraction => whole ++ '.' :: fraction

/-- A digit string with the point after its first digit, and the power of ten as exponent. -/
def exponentText (pointsMantissa : Bool) (plus : String) (digits : List Char) (power : Int) : List Char :=
  let mantissa := match digits with
    | d :: e :: rest => d :: '.' :: e :: rest
    | short => if pointsMantissa then short ++ ['.', '0'] else short
  let sign := if power < 0 then ['-'] else plus.toList
  mantissa ++ 'e' :: sign ++ Nat.toDigits 10 power.natAbs

/-- A finite number in a style. -/
def finiteText (style : NumberStyle) (x : Float) : String :=
  let b := Binary.ofFloat x
  let (digits, power) :=
    if b.significand = 0 then (['0'], 0) else (b.shortest style.tie).normal
  let body :=
    if style.positional power then positionalText style.keepsPoint digits power
    else exponentText style.pointsMantissa style.plus digits power
  String.ofList (if b.negative then '-' :: body else body)

end NumberStyle

namespace Score

/-- The text of a number in messages and keys: `inf`, `-inf` and `NaN` beside the finite ones. -/
def text (a : Score) : String :=
  let x := a.toFloat
  if x.isNaN then "NaN"
  else if x.isInf then (if x < 0 then "-inf" else "inf")
  else NumberStyle.plain.finiteText x

/-- No double has more decimal places than this. -/
def exactPlaces : Nat := 1074

/-- The text of a number with a fixed number of decimal places; the exact value is rounded half to even. -/
def fixedText (places : Nat) (a : Score) : String :=
  let x := a.toFloat
  if x.isNaN then "NaN"
  else if x.isInf then (if x < 0 then "-inf" else "inf")
  else
    let b := Binary.ofFloat x
    let kept := min places exactPlaces
    let written := Nat.toDigits 10 (b.scaled kept)
    let padded := List.replicate (kept + 1 - written.length) '0' ++ written ++ List.replicate (places - kept) '0'
    let split := padded.length - places
    let body := if places = 0 then padded else padded.take split ++ '.' :: padded.drop split
    String.ofList (if b.negative then '-' :: body else body)

end Score

end Scoresheet
