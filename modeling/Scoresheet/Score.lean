/-!
# Scores

A score is a double-precision number.  `Float` has one NaN; judging panels sort their marks by a total order in which
a negative NaN comes first and a positive one last, so the sign of a NaN is kept beside the number.

Arithmetic hands a NaN operand on, the left one before the right one, and a NaN that arises from numbers (`∞ - ∞`) is
negative.  The comparisons `<` and `==` of numbers hold of no NaN; the total order `Score.rank` compares every two
scores, by their bits.
-/
namespace Scoresheet

/-- A double-precision number, its NaN positive, or the negative NaN. -/
inductive Score where
  | number (x : Float)
  | negativeNaN
deriving DecidableEq

namespace Score

/-- The positive NaN. -/
def nan : Score := .number (Float.ofBits 0x7ff8000000000000)

/-- The floating-point number, which forgets the sign of a NaN. -/
def toFloat : Score → Float
  | .number x => x
  | .negativeNaN => Float.ofBits 0x7ff8000000000000

instance : Inhabited Score := ⟨.number 0⟩

instance {n : Nat} : OfNat Score n := ⟨.number (OfNat.ofNat n)⟩

def ofNat (n : Nat) : Score := .number (Float.ofNat n)

def ofInt (n : Int) : Score := .number (Float.ofInt n)

def ofBool (b : Bool) : Score := if b then 1 else 0

/-- Zero with the minus sign, where sums start: `-0 + x` is `x` for every `x`. -/
def negativeZero : Score := .number (-0.0)

def infinity : Score := .number (Float.ofBits 0x7ff0000000000000)

def negativeInfinity : Score := .number (Float.ofBits 0xfff0000000000000)

def isNaN (a : Score) : Bool := a.toFloat.isNaN

def isFinite (a : Score) : Bool := a.toFloat.isFinite

/-! ## Arithmetic -/

/-- An operation on numbers, extended to NaN operands. -/
def lift (op : Float → Float → Float) : Score → Score → Score
  | .negativeNaN, _ => .negativeNaN
  | .number x, b =>
    if x.isNaN then .number x
    else match b with
      | .negativeNaN => .negativeNaN
      | .number y =>
        if y.isNaN then .number y
        else if (op x y).isNaN then .negativeNaN else .number (op x y)

instance : Add Score := ⟨lift (· + ·)⟩
instance : Sub Score := ⟨lift (· - ·)⟩
instance : Mul Score := ⟨lift (· * ·)⟩
instance : Div Score := ⟨lift (· / ·)⟩

/-- The sign turned, that of a NaN too. -/
def neg : Score → Score
  | .negativeNaN => nan
  | .number x => if x.isNaN then .negativeNaN else .number (-x)

instance : Neg Score := ⟨neg⟩

/-- The sign cleared, that of a NaN too. -/
def abs : Score → Score
  | .negativeNaN => nan
  | .number x => .number x.abs

/-- Left to right from negative zero. -/
def sum (xs : List Score) : Score := xs.foldl (· + ·) negativeZero

/-- Left to right from one. -/
def product (xs : List Score) : Score := xs.foldl (· * ·) 1

/-! ## Comparison of numbers -/

def lt (a b : Score) : Bool := decide (a.toFloat < b.toFloat)

/-- Equality of numbers: the two zeros are equal and a NaN equals nothing. -/
def sameNumber (a b : Score) : Bool := a.toFloat == b.toFloat

def isZero (a : Score) : Bool := a.toFloat == 0

/-- The larger number; a NaN gives way to the other operand. -/
protected def max (a b : Score) : Score :=
  if a.isNaN then b else if a.lt b then b else a

/-- The smaller number; a NaN gives way to the other operand. -/
protected def min (a b : Score) : Score :=
  if a.isNaN then b else if b.lt a then b else a

/-- The number moved into `lo ≤ x ≤ hi`; a NaN stays. -/
def clamp (lo hi a : Score) : Score :=
  if a.lt lo then lo else if hi.lt a then hi else a

/-! ## The total order -/

/-- The place of a score in the total order: negative NaN, negative infinity, the negative numbers, the two zeros with
the negative one first, the positive numbers, infinity, NaN. -/
def rank : Score → Int
  | .negativeNaN => -0x7ff8000000000001
  | .number x =>
    let bits := x.toBits.toNat
    if bits < Nat.pow 2 63 then bits else -(bits - Nat.pow 2 63 : Nat) - 1

/-- The total order. -/
def le (a b : Score) : Bool := decide (a.rank ≤ b.rank)

theorem le_iff {a b : Score} : a.le b = true ↔ a.rank ≤ b.rank := by simp [le]

theorem le_trans {a b c : Score} (h₁ : a.le b = true) (h₂ : b.le c = true) : a.le c = true := by
  rw [le_iff] at *; omega

theorem le_total (a b : Score) : (a.le b || b.le a) = true := by
  simp only [Bool.or_eq_true, le_iff]; omega

/-! ## Whole numbers -/

/-- The whole part, toward zero, kept within 64 bits; a NaN has none and counts as zero. -/
def toInt (a : Score) : Int :=
  let magnitude := a.toFloat.abs.toUInt64.toNat
  if a.lt 0 then -(min magnitude (Nat.pow 2 63) : Nat) else (min magnitude (Nat.pow 2 63 - 1) : Nat)

/-- From `2 ^ 52` on every number is whole. -/
def wholeFrom : Float := 4503599627370496

/-- A number without a fractional part; neither infinity nor a NaN is one. -/
def isWhole (a : Score) : Bool :=
  if a.toFloat.abs < wholeFrom then Float.ofInt a.toInt == a.toFloat else a.isFinite

/-- The largest whole number not above it.  A zero keeps its sign. -/
def floor : Score → Score
  | .negativeNaN => .negativeNaN
  | .number x =>
    if x.abs < wholeFrom then
      let t := Float.ofInt (toInt (.number x))
      .number (if x < t then t - 1 else if t == 0 then x * 0 else t)
    else .number x

end Score

end Scoresheet
