import Mathlib.Algebra.Order.Field.Rat
import Mathlib.Tactic.NormNum
import Scoresheet.Panel.Selection
import Scoresheet.Proofs.Ordering
import Scoresheet.Score.Decimal
/-!
# Exact marks

A finite score is a rational number (`Binary.value`), and the total order is the order of these numbers, with the
negative zero before the other one (`Score.exact_le`).  Every finite score is a multiple of the smallest one above zero,
and the bits of a score count up with that multiple (`units_strictMono`).

A mark may be such a number, whose midpoints and distances are not rounded (`Exact`).  A criterion picks from exact marks
what it picks from scores, as far as the arithmetic of scores does not round.
-/
namespace Scoresheet

/-! ## The numbers that scores are -/

/-- The number that a finite double is. -/
def Binary.value (b : Binary) : ℚ := (if b.negative then -1 else 1) * (b.numerator / b.denominator)

/-- The multiple of the smallest positive double that the bits of a double stand for, its sign apart. -/
def units (bits : Nat) : Nat :=
  if bits / 2 ^ 52 = 0 then bits % 2 ^ 52 else (2 ^ 52 + bits % 2 ^ 52) * 2 ^ (bits / 2 ^ 52 - 1)

/-- **The bits of a double count up with its magnitude.** -/
theorem units_strictMono : StrictMono units := by
  refine strictMono_nat_of_lt_succ fun bits => ?_
  by_cases hcarry : bits % 2 ^ 52 + 1 = 2 ^ 52
  · -- the fraction is full: the next one has an empty fraction and the next exponent
    have hexponent : (bits + 1) / 2 ^ 52 = bits / 2 ^ 52 + 1 := by omega
    have hfraction : (bits + 1) % 2 ^ 52 = 0 := by omega
    unfold units
    rw [hexponent, hfraction, if_neg (Nat.succ_ne_zero _), Nat.add_zero, Nat.add_sub_cancel]
    split
    · rename_i hzero
      rw [hzero, pow_zero]
      omega
    · rename_i hfield
      obtain ⟨f, hf⟩ := Nat.exists_eq_succ_of_ne_zero hfield
      rw [hf, Nat.succ_sub_one]
      calc (2 ^ 52 + bits % 2 ^ 52) * 2 ^ f < 2 ^ 52 * 2 * 2 ^ f :=
            Nat.mul_lt_mul_of_pos_right (by omega) (Nat.two_pow_pos f)
        _ = 2 ^ 52 * 2 ^ (f + 1) := by rw [mul_assoc, ← pow_succ']
  · have hexponent : (bits + 1) / 2 ^ 52 = bits / 2 ^ 52 := by omega
    have hfraction : (bits + 1) % 2 ^ 52 = bits % 2 ^ 52 + 1 := by omega
    unfold units
    rw [hexponent, hfraction]
    split
    · exact Nat.lt_succ_self _
    · exact Nat.mul_lt_mul_of_pos_right (by omega) (Nat.two_pow_pos _)

theorem units_eq_zero_iff {bits : Nat} : units bits = 0 ↔ bits = 0 :=
  units_strictMono.injective.eq_iff' (by decide)

/-- The smallest double above zero is one at this place behind the binary point. -/
def lastPlace : Nat := 1074

/-- The bits of a double without its sign. -/
def magnitudeBits (x : Float) : Nat := x.toBits.toNat % 2 ^ 63

/-- The significand of a double, shifted by its exponent, is the multiple that its bits stand for. -/
theorem significand_shifted (x : Float) :
    (Binary.ofFloat x).significand * 2 ^ (Binary.ofFloat x).exponent.toNat * 2 ^ lastPlace =
      units (magnitudeBits x) * 2 ^ (-(Binary.ofFloat x).exponent).toNat := by
  have hfield : magnitudeBits x / 2 ^ 52 = x.toBits.toNat / 2 ^ 52 % 2 ^ 11 := by
    unfold magnitudeBits
    omega
  have hfraction : magnitudeBits x % 2 ^ 52 = x.toBits.toNat % 2 ^ 52 := by
    unfold magnitudeBits
    omega
  unfold units Binary.ofFloat
  simp only [Nat.pow_eq]
  rw [← hfield, ← hfraction]
  by_cases hzero : magnitudeBits x / 2 ^ 52 = 0
  · rw [if_pos hzero, if_pos hzero, if_pos hzero, show (-1074 : Int).toNat = 0 from rfl,
      show (-(-1074) : Int).toNat = lastPlace from rfl, pow_zero, Nat.mul_one]
  · obtain ⟨f, hf⟩ := Nat.exists_eq_succ_of_ne_zero hzero
    rw [if_neg hzero, if_neg hzero, if_neg hzero, hf, Nat.succ_sub_one, mul_assoc, mul_assoc, ← pow_add, ← pow_add]
    congr 2
    unfold lastPlace
    omega

theorem value_ofFloat (x : Float) : (Binary.ofFloat x).value =
    (if (Binary.ofFloat x).negative then -1 else 1) * (units (magnitudeBits x) / 2 ^ lastPlace : ℚ) := by
  have hunit : (2 : ℚ) ^ lastPlace ≠ 0 := pow_ne_zero _ two_ne_zero
  have hshift : (2 : ℚ) ^ (-(Binary.ofFloat x).exponent).toNat ≠ 0 := pow_ne_zero _ two_ne_zero
  have hshifted : ((Binary.ofFloat x).significand : ℚ) * 2 ^ (Binary.ofFloat x).exponent.toNat * 2 ^ lastPlace =
      units (magnitudeBits x) * 2 ^ (-(Binary.ofFloat x).exponent).toNat := by
    exact_mod_cast significand_shifted x
  have hfraction : ((Binary.ofFloat x).numerator : ℚ) / (Binary.ofFloat x).denominator =
      units (magnitudeBits x) / 2 ^ lastPlace := by
    unfold Binary.numerator Binary.denominator
    rw [Nat.pow_eq, Nat.pow_eq, Nat.cast_mul, Nat.cast_pow, Nat.cast_pow, Nat.cast_ofNat, div_eq_div_iff hshift hunit,
      hshifted]
  rw [Binary.value, hfraction]

theorem significand_eq_zero_iff (x : Float) : (Binary.ofFloat x).significand = 0 ↔ magnitudeBits x = 0 := by
  have hshifted := significand_shifted x
  rw [← @units_eq_zero_iff (magnitudeBits x)]
  constructor
  · intro hzero
    rw [hzero, Nat.zero_mul, Nat.zero_mul] at hshifted
    exact (Nat.mul_eq_zero.1 hshifted.symm).resolve_right (Nat.two_pow_pos _).ne'
  · intro hzero
    rw [hzero, Nat.zero_mul] at hshifted
    exact (Nat.mul_eq_zero.1 ((Nat.mul_eq_zero.1 hshifted).resolve_right (Nat.two_pow_pos _).ne')).resolve_right
      (Nat.two_pow_pos _).ne'

/-! ## Exact marks -/

/-- A mark that is a rational number, with the sign that a zero has in the total order. -/
structure Exact where
  value : ℚ
  minusZero : Bool
  isZero : minusZero = true → value = 0
deriving DecidableEq

/-- Numbers compare as numbers do and the negative zero comes before the other one.  Midpoints and distances are not
rounded. -/
instance : Mark Exact where
  le a b := decide (a.value < b.value ∨ a.value = b.value ∧ (b.minusZero = true → a.minusZero = true))
  midpoint a b :=
    { value := (a.value + b.value) / 2
      minusZero := a.minusZero && b.minusZero
      isZero := fun h => by
        obtain ⟨ha, hb⟩ := Bool.and_eq_true_iff.1 h
        rw [a.isZero ha, b.isZero hb]
        norm_num }
  distance a b := { value := |a.value - b.value|, minusZero := false, isZero := fun h => by cases h }
  larger a b := if a.value < b.value then b else a
  same a b := decide (a.value = b.value)

/-- The number that a finite score is. -/
def Score.exact (a : Score) : Exact :=
  let b := Binary.ofFloat a.toFloat
  { value := b.value
    minusZero := b.negative && decide (b.significand = 0)
    isZero := fun h => by
      have hzero : b.significand = 0 := by simp_all
      simp [Binary.value, Binary.numerator, hzero] }

theorem Exact.le_iff {a b : Exact} : Mark.le a b = true ↔
    a.value < b.value ∨ a.value = b.value ∧ (b.minusZero = true → a.minusZero = true) := decide_eq_true_iff

theorem Exact.value_le_of_le {a b : Exact} (h : Mark.le a b = true) : a.value ≤ b.value := by
  rcases Exact.le_iff.1 h with hlt | ⟨heq, -⟩
  · exact hlt.le
  · exact heq.le

theorem Exact.larger_eq_or (a b : Exact) : Mark.larger a b = a ∨ Mark.larger a b = b := by
  show (if a.value < b.value then b else a) = a ∨ (if a.value < b.value then b else a) = b
  split
  · exact .inr rfl
  · exact .inl rfl

theorem Exact.value_larger (a b : Exact) : (Mark.larger a b).value = max a.value b.value := by
  show (if a.value < b.value then b else a).value = max a.value b.value
  split
  · rename_i hlt
    exact (max_eq_right hlt.le).symm
  · rename_i hle
    exact (max_eq_left (not_lt.1 hle)).symm

/-! ## The total order -/

/-- The multiple of the smallest positive double that a double stands for. -/
def signedUnits (x : Float) : Int :=
  if (Binary.ofFloat x).negative then -(units (magnitudeBits x) : Int) else units (magnitudeBits x)

theorem exact_number_value (x : Float) : (Score.number x).exact.value = (signedUnits x : ℚ) / 2 ^ lastPlace := by
  show (Binary.ofFloat x).value = _
  rw [value_ofFloat, signedUnits]
  split
  · rw [neg_one_mul, Int.cast_neg, Int.cast_natCast, neg_div]
  · rw [one_mul, Int.cast_natCast]

theorem exact_number_minusZero (x : Float) :
    (Score.number x).exact.minusZero = true ↔ (Binary.ofFloat x).negative = true ∧ magnitudeBits x = 0 := by
  rw [← significand_eq_zero_iff, ← decide_eq_true_iff (p := (Binary.ofFloat x).significand = 0), ← Bool.and_eq_true_iff]
  rfl

theorem rank_number (x : Float) : (Score.number x).rank =
    if (Binary.ofFloat x).negative then -(magnitudeBits x : Int) - 1 else magnitudeBits x := by
  have hbits : x.toBits.toNat < 2 ^ 64 := x.toBits.toNat_lt
  unfold Score.rank Binary.ofFloat magnitudeBits
  simp only [Nat.pow_eq, decide_eq_true_eq]
  split <;> split <;> omega

/-- **The total order of finite scores is that of the numbers that they are.** -/
theorem Score.exact_le {a b : Score} (ha : a.isFinite = true) (hb : b.isFinite = true) :
    Mark.le a.exact b.exact = a.le b := by
  cases a with
  | negativeNaN => exact absurd ha (by decide)
  | number x =>
    cases b with
    | negativeNaN => exact absurd hb (by decide)
    | number y =>
      have hunit : (0 : ℚ) < 2 ^ lastPlace := pow_pos two_pos _
      have hlt : units (magnitudeBits x) < units (magnitudeBits y) ↔ magnitudeBits x < magnitudeBits y :=
        units_strictMono.lt_iff_lt
      have hgt : units (magnitudeBits y) < units (magnitudeBits x) ↔ magnitudeBits y < magnitudeBits x :=
        units_strictMono.lt_iff_lt
      have hzero : units (magnitudeBits x) = 0 ↔ magnitudeBits x = 0 := units_eq_zero_iff
      rw [Bool.eq_iff_iff, Exact.le_iff, Score.le_iff, exact_number_value, exact_number_value, exact_number_minusZero,
        exact_number_minusZero, rank_number, rank_number, div_lt_div_iff_of_pos_right hunit, div_left_inj' hunit.ne',
        Int.cast_lt, Int.cast_inj, signedUnits, signedUnits]
      cases hs : (Binary.ofFloat x).negative <;> cases ht : (Binary.ofFloat y).negative <;>
        simp only [Bool.false_eq_true, if_false, if_true, true_and, and_true, false_and, false_implies, imp_false,
          not_false_eq_true] <;> omega

end Scoresheet
