import Scoresheet.Proofs.Whole
/-!
# Whole numbers that are no scores

From `2 ^ 53` on not every whole number is a score, and one that is none is rounded.  Rounding keeps 53 bits and moves
the leading one by a place at most (`exists_roundWithAccuracy`), so a whole number of 64 bits keeps its sign, and one
that was large stays large (`Score.toInt_ofInt_neg`, `Score.le_toInt_ofInt`).
-/
namespace Scoresheet

open Float.Model (Format UnpackedFloat totalExponent)
open Float.Model.UnpackedFloat

/-! ## Rounding -/

theorem mantissa_shiftRight (x : ExtendedMantissa) : ∀ k : Nat, (x >>> k).mantissa = x.mantissa / 2 ^ k
  | 0 => by simp [HShiftRight.hShiftRight, Nat.repeat]
  | k + 1 => by
    show (x >>> k).mantissa / 2 = x.mantissa / 2 ^ (k + 1)
    rw [mantissa_shiftRight x k, Nat.div_div_eq_div_mul, pow_succ]

theorem roundedMantissa_bounds (x : ExtendedMantissa) :
    x.mantissa ≤ x.roundedMantissa ∧ x.roundedMantissa ≤ x.mantissa + 1 := by
  obtain ⟨m, half, rest⟩ := x
  cases half <;> cases rest <;>
    simp only [ExtendedMantissa.roundedMantissa, ExtendedMantissa.accuracy, Accuracy.roundToNearestEven] <;> omega

/-- A significand with at least 53 bits, cut down to 53. -/
theorem div_bounds_of_log2 {m : Nat} (hm : 2 ^ 52 ≤ m) :
    2 ^ 52 ≤ m / 2 ^ (m.log2 - 52) ∧ m / 2 ^ (m.log2 - 52) < 2 ^ 53 := by
  have h₀ : m ≠ 0 := by omega
  have hlog : 52 ≤ m.log2 := (Nat.le_log2 h₀).2 hm
  constructor
  · refine (Nat.le_div_iff_mul_le (Nat.two_pow_pos _)).2 ?_
    rw [← pow_add, Nat.add_sub_cancel' hlog]
    exact Nat.log2_self_le h₀
  · refine (Nat.div_lt_iff_lt_mul (Nat.two_pow_pos _)).2 ?_
    rw [← pow_add, show 53 + (m.log2 - 52) = m.log2 + 1 by omega]
    exact Nat.lt_log2_self

/-- **Rounding keeps 53 bits.**  The power of two grows by the bits left out, and by one more where rounding up carries
into a new place. -/
theorem exists_roundWithAccuracy {m : Nat} {e : Int} (hm : 2 ^ 52 ≤ m) (he : -1074 ≤ e) :
    ∃ (n : Nat) (e' : Int) (hn : 0 < n), roundWithAccuracy .binary64 .positive m e .exact = .finite .positive n e' hn ∧
      (2 ^ 52 ≤ n ∧ n < 2 ^ 53) ∧ e + (m.log2 - 52) ≤ e' ∧ e' ≤ e + (m.log2 - 51) := by
  have hlog : 52 ≤ m.log2 := (Nat.le_log2 (by omega)).2 hm
  obtain ⟨k, hk⟩ : ∃ k : Nat, m.log2 = 52 + k := ⟨m.log2 - 52, by omega⟩
  have htarget : ∀ (n : Nat) (x : Int) (l : Nat), n.log2 = l → -1074 ≤ l + x - 52 →
      Format.binary64.targetExponent (totalExponent n x) = l + x - 52 := by
    rintro n x l rfl hx
    rw [targetExponent_binary64, totalExponent]
    omega
  set first := (ExtendedMantissa.mk m false false) >>> k with hfirst
  have hshift : shiftToTargetExponent .binary64 m e .exact = (first, e + k) := by
    have hamount : ((52 + k : Nat) + e - 52 - e).toNat = k := by omega
    rw [shiftToTargetExponent, htarget m e _ hk (by omega)]
    simp only [shiftToExponent, hamount, ExtendedMantissa.ofMantissaAndAccuracy, hfirst]
  have hcut : 2 ^ 52 ≤ first.mantissa ∧ first.mantissa < 2 ^ 53 := by
    have hbounds := div_bounds_of_log2 hm
    rw [hk, Nat.add_sub_cancel_left] at hbounds
    rwa [hfirst, mantissa_shiftRight]
  have hrounded := roundedMantissa_bounds first
  by_cases hcarry : first.roundedMantissa < 2 ^ 53
  · have hbits : 2 ^ 52 ≤ first.roundedMantissa ∧ first.roundedMantissa < 2 ^ 53 := by omega
    have hstay := shiftToExponent_exact first.roundedMantissa 0 (e + k)
    rw [pow_zero, Nat.mul_one, Nat.cast_zero, Int.add_zero] at hstay
    have hagain : shiftToTargetExponent .binary64 first.roundedMantissa (e + k) .exact =
        (⟨first.roundedMantissa, false, false⟩, e + k) := by
      rw [shiftToTargetExponent, htarget _ _ 52 (log2_eq_of_bounds hbits) (by omega),
        show ((52 : Nat) : Int) + (e + k) - 52 = e + k by omega, hstay]
    refine ⟨first.roundedMantissa, e + k, by omega, ?_, hbits, by omega, by omega⟩
    exact roundWithAccuracy_of_shifts hshift hagain (by show 0 < first.roundedMantissa; omega)
  · -- all 53 bits were set, and the carry leaves a power of two
    have htop : first.roundedMantissa = 2 ^ 52 * 2 ^ 1 := by omega
    have hagain : shiftToTargetExponent .binary64 first.roundedMantissa (e + k) .exact =
        (⟨2 ^ 52, false, false⟩, e + k + 1) := by
      rw [htop, shiftToTargetExponent, htarget _ _ 53 (log2_eq_of_bounds (by omega)) (by omega),
        show ((53 : Nat) : Int) + (e + k) - 52 = e + k + (1 : Nat) by omega, shiftToExponent_exact]
      rfl
    refine ⟨2 ^ 52, e + k + 1, by decide, ?_, by omega, by omega, by omega⟩
    exact roundWithAccuracy_of_shifts hshift hagain (by decide)

/-! ## Natural numbers of 64 bits -/

theorem ofScientific_zero {n : Nat} (h₀ : n ≠ 0) : UnpackedFloat.ofScientific .binary64 n 0 =
    roundWithAccuracy .binary64 .positive (n * 2 ^ 53) (-53) .exact := by
  have hlarge : ¬ (0 : Int) > 2 ^ Format.binary64.exponentBits := by decide
  have hsmall : ¬ (0 : Int) < -(2 ^ Format.binary64.exponentBits + n.log2) := by
    show ¬ (0 : Int) < -(2 ^ 11 + n.log2)
    omega
  have hshift : n <<< 53 * 10 ^ 0 = n * 2 ^ 53 := by rw [pow_zero, Nat.mul_one, Nat.shiftLeft_eq]
  rw [UnpackedFloat.ofScientific, dif_neg h₀, if_neg hlarge, if_neg hsmall, if_pos (Int.le_refl 0), ← hshift]
  rfl

/-- A natural number that is not zero becomes a positive number, and from `2 ^ 53` on one that is even. -/
theorem exists_unpack_ofNat {n : Nat} (h₀ : n ≠ 0) (h : n < 2 ^ 64) :
    ∃ (m : Nat) (e : Int) (hm : 0 < m), (Float.ofNat n).toModel.unpack = .finite .positive m e hm ∧
      (2 ^ 52 ≤ m ∧ m < 2 ^ 53) ∧ (-52 ≤ e ∧ e ≤ 12) ∧ (2 ^ 53 ≤ n → 1 ≤ e) := by
  have hlog : n.log2 < 64 := (Nat.log2_lt h₀).2 h
  by_cases hn : n < 2 ^ 53
  · have hlog' : n.log2 < 53 := (Nat.log2_lt h₀).2 hn
    rw [unpack_ofNat hn, natural_of_ne h₀]
    exact ⟨_, _, _, rfl, aligned_bounds h₀ hn, by omega, by omega⟩
  · rw [Nat.not_lt] at hn
    have hwide : 53 ≤ n.log2 := (Nat.le_log2 h₀).2 hn
    have hmodel : (Float.ofNat n).toModel = Float.Model.pack (UnpackedFloat.ofScientific .binary64 n 0) := by
      show (Float.ofScientific n false 0).toModel = _
      rw [Float.ofScientific, dif_neg (by omega)]
      rfl
    have hlog2 : (n * 2 ^ 53).log2 = n.log2 + 53 := by
      refine log2_eq_of_bounds ⟨?_, ?_⟩
      · rw [pow_add]
        exact Nat.mul_le_mul_right _ (Nat.log2_self_le h₀)
      · rw [Nat.add_right_comm, pow_add]
        exact Nat.mul_lt_mul_of_pos_right Nat.lt_log2_self (Nat.two_pow_pos 53)
    obtain ⟨m, e, hm, hround, hbits, hlow, hhigh⟩ := exists_roundWithAccuracy (m := n * 2 ^ 53) (e := -53)
      (by omega) (by omega)
    rw [hlog2] at hlow hhigh
    refine ⟨m, e, hm, ?_, hbits, by omega, by omega⟩
    rw [hmodel, ofScientific_zero h₀, hround]
    exact unpack_pack hbits (by omega) hm

theorem toInt_of_even {m : Nat} {e : Int} (hm : 2 ^ 52 ≤ m) (he : 1 ≤ e) (hpos : 0 < m) (lo hi : Int) :
    2 ^ 53 ≤ UnpackedFloat.toInt lo hi (.finite .positive m e hpos) := by
  obtain ⟨k, rfl⟩ : ∃ k : Nat, e = k + 1 := ⟨(e - 1).toNat, by omega⟩
  have hdown : decreaseExponent m (k + 1) 0 = (m * 2 ^ (k + 1), 0) := by
    have hamount : ((k : Int) + 1 - 0).toNat = k + 1 := by omega
    simp only [decreaseExponent, hamount, Nat.shiftLeft_eq, Prod.mk.injEq, true_and]
    omega
  have hstay := shiftToExponent_exact (m * 2 ^ (k + 1)) 0 0
  rw [pow_zero, Nat.mul_one, Nat.cast_zero, Int.add_zero] at hstay
  have hlarge : 2 ^ 53 ≤ m * 2 ^ (k + 1) :=
    calc 2 ^ 53 = 2 ^ 52 * 2 := by rfl
      _ ≤ m * 2 ^ (k + 1) := Nat.mul_le_mul hm (Nat.le_self_pow (by omega) 2)
  show 2 ^ 53 ≤ roundToInt .positive m (k + 1)
  simp only [roundToInt, hdown, hstay]
  show (2 ^ 53 : Int) ≤ (m * 2 ^ (k + 1) : Nat)
  exact_mod_cast hlarge

namespace Score

/-- **A whole number that was large is large as a score.** -/
theorem le_toInt_ofInt {c : Int} (h : 2 ^ 53 ≤ c) (h' : c < 2 ^ 64) : 2 ^ 53 ≤ (ofInt c).toInt := by
  obtain ⟨n, rfl⟩ := Int.eq_ofNat_of_zero_le (by omega : 0 ≤ c)
  obtain ⟨m, e, hm, hunpack, hbits, he, heven⟩ := exists_unpack_ofNat (n := n) (by omega) (by omega)
  have hlarge := toInt_of_even hbits.1 (heven (by omega)) hm 0 (UInt64.size - 1)
  have hmagnitude : 2 ^ 53 ≤ (Float.ofNat n).abs.toUInt64.toNat := by
    show 2 ^ 53 ≤ ((Float.Model.pack (Float.ofNat n).toModel.unpack.abs).unpack.toUInt64).toNat
    rw [hunpack]
    show 2 ^ 53 ≤ ((Float.Model.pack (.finite .positive m e hm)).unpack.toUInt64).toNat
    rw [unpack_pack hbits (by omega) hm, UnpackedFloat.toUInt64, UInt64.ofNatClamp]
    generalize UnpackedFloat.toInt 0 (UInt64.size - 1) _ = v at hlarge ⊢
    split
    · rw [UInt64.toNat_ofNatLT]
      omega
    · decide
  have hlt : ¬ (ofInt n).lt 0 = true := by
    rw [lt_iff_order, order, show (ofInt n).toFloat = Float.ofNat n from rfl, hunpack]
    exact (by decide : ¬ some Ordering.gt = some Ordering.lt)
  have hbound : Nat.pow 2 63 = 9223372036854775808 := rfl
  simp only [toInt, if_neg hlt, show (ofInt n).toFloat = Float.ofNat n from rfl, hbound]
  omega

/-- **A negative whole number is no positive score.** -/
theorem toInt_ofInt_neg {c : Int} (h : -2 ^ 63 ≤ c) (h' : c < 0) : (ofInt c).toInt ≤ 0 := by
  obtain ⟨n, rfl⟩ := Int.eq_negSucc_of_lt_zero h'
  obtain ⟨m, e, hm, hunpack, hbits, he, -⟩ := exists_unpack_ofNat (n := n + 1) (by omega) (by omega)
  have hneg : (Float.ofInt (.negSucc n)).toModel.unpack = .finite .negative m e hm := by
    show (Float.Model.pack (Float.ofNat (n + 1)).toModel.unpack.neg).unpack = _
    rw [hunpack]
    exact unpack_pack hbits (by omega) hm
  have hlt : (ofInt (.negSucc n)).lt 0 = true := by
    rw [lt_iff_order, order, show (ofInt (.negSucc n)).toFloat = Float.ofInt (.negSucc n) from rfl, hneg]
    rfl
  rw [toInt, if_pos hlt]
  omega

end Score

end Scoresheet
