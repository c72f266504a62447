import Scoresheet.Score

/-!
# Decimal digits of a number

A finite double is `± m · 2 ^ q`.  Two ways to write it in decimal, both in exact integer arithmetic: the fewest digits
that read back as the same double, and a fixed number of decimal places.  How digits become text is settled where the
text is written.
-/
namespace Scoresheet

/-- Which way a point half-way between two neighbours goes. -/
inductive Tie where
  | up
  | toEven
deriving DecidableEq

/-- `num / den` rounded to the nearest whole number. -/
def roundDiv (tie : Tie) (num den : Nat) : Nat :=
  let q := num / den
  let r := num % den
  if 2 * r < den then q
  else if den < 2 * r then q + 1
  else match tie with
    | .up => q + 1
    | .toEven => q + q % 2

/-- A finite double: the sign, and the magnitude `significand · 2 ^ exponent`. -/
structure Binary where
  negative : Bool
  significand : Nat
  exponent : Int
deriving DecidableEq

/-- A magnitude in decimal, `digits · 10 ^ exponent`. -/
structure Decimal where
  digits : Nat
  exponent : Int
deriving DecidableEq

namespace Binary

/-- The sign, fraction and exponent fields of a finite double. -/
def ofFloat (x : Float) : Binary :=
  let bits := x.toBits.toNat
  let fraction := bits % Nat.pow 2 52
  let field : Nat := bits / Nat.pow 2 52 % Nat.pow 2 11
  { negative := decide (Nat.pow 2 63 ≤ bits)
    significand := if field = 0 then fraction else Nat.pow 2 52 + fraction
    exponent := if field = 0 then -1074 else (field : Int) - 1075 }

/-- The magnitude as a fraction of naturals. -/
def numerator (b : Binary) : Nat := b.significand * Nat.pow 2 b.exponent.toNat

def denominator (b : Binary) : Nat := Nat.pow 2 (-b.exponent).toNat

/-- The magnitude in units of `10 ^ -places`, rounded to nearest with ties to even. -/
def scaled (places : Nat) (b : Binary) : Nat :=
  roundDiv .toEven (b.numerator * Nat.pow 10 places) b.denominator

/-- The length of a natural in decimal. -/
def digitCount (n : Nat) : Nat := (Nat.toDigits 10 n).length

/-- The power of ten of the leading digit.  Every double above zero is at least `10 ^ -330`, so the quotient taken here
is not zero. -/
def leadingPower (b : Binary) : Int :=
  (digitCount (b.numerator * Nat.pow 10 330 / b.denominator) : Int) - 331

/-! ## The fewest digits

The reals that read back as `b` lie between the two points half-way to its neighbours, ends included when the
significand is even.  In quarters of the unit `2 ^ exponent` the value is `4 m`, the upper end `4 m + 2`, and the lower
end `4 m - 2`, or `4 m - 1` where the next double below is closer. -/

/-- The lower end in quarters of the unit. -/
def lowerQuarters (b : Binary) : Nat :=
  if b.significand = Nat.pow 2 52 ∧ -1074 < b.exponent then 4 * b.significand - 1 else 4 * b.significand - 2

/-- The upper end in quarters of the unit. -/
def upperQuarters (b : Binary) : Nat := 4 * b.significand + 2

/-- `n` quarters of the unit, brought to the common denominator with the decimal grid `10 ^ k`. -/
def quarters (b : Binary) (k : Int) (n : Nat) : Nat :=
  n * Nat.pow 2 (b.exponent - 2).toNat * Nat.pow 10 (-k).toNat

/-- `n` steps of the decimal grid `10 ^ k`, brought to the same denominator. -/
def steps (b : Binary) (k : Int) (n : Nat) : Nat :=
  n * Nat.pow 2 (2 - b.exponent).toNat * Nat.pow 10 k.toNat

/-- Whether the point `n · 10 ^ k` reads back as `b`. -/
def readsBack (b : Binary) (k : Int) (n : Nat) : Bool :=
  let point := b.steps k n
  let lower := b.quarters k b.lowerQuarters
  let upper := b.quarters k b.upperQuarters
  if b.significand % 2 = 0 then decide (lower ≤ point ∧ point ≤ upper)
  else decide (lower < point ∧ point < upper)

/-- The point of the grid `10 ^ k` beside the value that reads back; of two such points the nearer. -/
def onGrid? (tie : Tie) (b : Binary) (k : Int) : Option Decimal :=
  let value := b.quarters k (4 * b.significand)
  let step := b.steps k 1
  let below := value / step
  let near := roundDiv tie value step
  if b.readsBack k near then some ⟨near, k⟩
  else if b.readsBack k below then some ⟨below, k⟩
  else if b.readsBack k (below + 1) then some ⟨below + 1, k⟩
  else none

/-- The fewest digits that read back: the first of the grids with 1, 2, …, 17 digits that has a point which does.
Seventeen digits always suffice. -/
def shortest (tie : Tie) (b : Binary) : Decimal :=
  let grids := (List.range 17).map fun n : Nat => b.leadingPower - n
  (grids.findSome? (b.onGrid? tie)).getD ⟨b.scaled 0, 0⟩

end Binary

namespace Decimal

/-- The digits without trailing zeros, and the power of ten of the leading digit. -/
def normal (d : Decimal) : List Char × Int :=
  let written := Nat.toDigits 10 d.digits
  let kept := (written.reverse.dropWhile (· == '0')).reverse
  (if kept.isEmpty then ['0'] else kept, d.exponent + written.length - 1)

end Decimal

end Scoresheet
