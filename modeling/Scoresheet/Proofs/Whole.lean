import Mathlib.Tactic.Positivity
import Mathlib.Tactic.Ring
import Scoresheet.Proofs.Ordering

/-!
# Natural numbers as scores

Every natural number below `2 ^ 53` is a score, and reads back from it.  A score is worked out from its significand and
its power of two (`natural`); making it multiplies by one, which shifts 52 zeros in and out again.
-/
namespace Scoresheet

open Float.Model (Format UnpackedFloat totalExponent)
open Float.Model.UnpackedFloat

/-- A natural below `2 ^ 53`, its leading bit moved to place 52. -/
def aligned (n : Nat) : Nat := n * 2 ^ (52 - n.log2)

theorem aligned_pos {n : Nat} (h₀ : n ≠ 0) : 0 < aligned n := by
  unfold aligned
  positivity

theorem aligned_bounds {n : Nat} (h₀ : n ≠ 0) (h : n < 2 ^ 53) : 2 ^ 52 ≤ aligned n ∧ aligned n < 2 ^ 53 := by
  have hlog : n.log2 < 53 := (Nat.log2_lt h₀).2 h
  have hsplit : n.log2 + (52 - n.log2) = 52 := by omega
  unfold aligned
  constructor
  · calc 2 ^ 52 = 2 ^ n.log2 * 2 ^ (52 - n.log2) := by rw [← pow_add, hsplit]
      _ ≤ n * 2 ^ (52 - n.log2) := Nat.mul_le_mul_right _ (Nat.log2_self_le h₀)
  · calc n * 2 ^ (52 - n.log2) < 2 ^ (n.log2 + 1) * 2 ^ (52 - n.log2) :=
          Nat.mul_lt_mul_of_pos_right Nat.lt_log2_self (by positivity)
      _ = 2 ^ 53 := by rw [← pow_add, Nat.add_right_comm, hsplit]

theorem log2_eq_of_bounds {m k : Nat} (h : 2 ^ k ≤ m ∧ m < 2 ^ (k + 1)) : m.log2 = k :=
  (Nat.log2_eq_iff (by have := Nat.two_pow_pos k; omega)).2 h

/-! ## Shifting -/

/-- A score has 53 bits, of which the last one stands for at least `2 ^ (-1074)`. -/
theorem targetExponent_binary64 (x : Int) : Format.binary64.targetExponent x = max (x - 53) (-1074) := rfl

theorem shiftRight_exact (m : Nat) : ∀ k : Nat,
    (ExtendedMantissa.mk (m * 2 ^ k) false false) >>> k = ⟨m, false, false⟩
  | 0 => by simp [HShiftRight.hShiftRight, Nat.repeat]
  | k + 1 => by
    have hstep : ExtendedMantissa.shiftRightOne ⟨m * 2, false, false⟩ = ⟨m, false, false⟩ := by
      simp [ExtendedMantissa.shiftRightOne]
    have hk := shiftRight_exact (m * 2) k
    rw [show m * 2 ^ (k + 1) = m * 2 * 2 ^ k by rw [pow_succ]; ring]
    calc (ExtendedMantissa.mk (m * 2 * 2 ^ k) false false) >>> (k + 1)
        = ((ExtendedMantissa.mk (m * 2 * 2 ^ k) false false) >>> k).shiftRightOne := rfl
      _ = ⟨m, false, false⟩ := by rw [hk, hstep]

theorem shiftToExponent_exact (m k : Nat) (e : Int) :
    shiftToExponent (m * 2 ^ k) e .exact (e + k) = (⟨m, false, false⟩, e + k) := by
  have hk : (e + k - e).toNat = k := by omega
  simp only [shiftToExponent, hk, ExtendedMantissa.ofMantissaAndAccuracy, shiftRight_exact]

/-- Rounding shifts twice: bits are left out and the rest is rounded, and where that carries it is shifted again. -/
theorem roundWithAccuracy_of_shifts {format : Format} {s : UnpackedFloat.Sign} {m : Nat} {e e₁ e₂ : Int}
    {acc : Accuracy} {first last : ExtendedMantissa} (hfirst : shiftToTargetExponent format m e acc = (first, e₁))
    (hlast : shiftToTargetExponent format first.roundedMantissa e₁ .exact = (last, e₂)) (hpos : 0 < last.mantissa) :
    roundWithAccuracy format s m e acc = .finite s last.mantissa e₂ hpos := by
  delta roundWithAccuracy
  rw [hfirst]
  dsimp only
  rw [hlast]
  exact dif_neg (Nat.pos_iff_ne_zero.1 hpos)

/-- Zeros at the end of a significand are shifted out, and nothing is lost. -/
theorem roundWithAccuracy_exact {m : Nat} {e : Int} (k : Nat) (hm : 2 ^ 52 ≤ m ∧ m < 2 ^ 53) (he : -1074 ≤ e) :
    roundWithAccuracy .binary64 .positive (m * 2 ^ k) (e - k) .exact = .finite .positive m e (by omega) := by
  have hlog : (m * 2 ^ k).log2 = 52 + k := by
    refine log2_eq_of_bounds ⟨?_, ?_⟩
    · rw [pow_add]; exact Nat.mul_le_mul_right _ hm.1
    · rw [show 52 + k + 1 = 53 + k by omega, pow_add]
      exact Nat.mul_lt_mul_of_pos_right hm.2 (by positivity)
  have htarget : ∀ (m' : Nat) (e' : Int), (m'.log2 : Int) + 1 + e' = 53 + e →
      Format.binary64.targetExponent (totalExponent m' e') = e := by
    intro m' e' h
    rw [targetExponent_binary64, totalExponent, h]
    omega
  have hfirst : shiftToTargetExponent .binary64 (m * 2 ^ k) (e - k) .exact = (⟨m, false, false⟩, e) := by
    have h := shiftToExponent_exact m k (e - k)
    rw [Int.sub_add_cancel] at h
    rw [shiftToTargetExponent, htarget _ _ (by rw [hlog]; omega), h]
  have hsecond : shiftToTargetExponent .binary64 m e .exact = (⟨m, false, false⟩, e) := by
    have h := shiftToExponent_exact m 0 e
    rw [pow_zero, Nat.mul_one, Nat.cast_zero, Int.add_zero] at h
    rw [shiftToTargetExponent, htarget _ _ (by rw [log2_eq_of_bounds hm]; omega), h]
  exact roundWithAccuracy_of_shifts hfirst hsecond (by show 0 < m; omega)

/-! ## Packing -/

theorem ofBitVec_unpackSign_packComponents (s : UnpackedFloat.Sign) (e : BitVec 11) (m : BitVec 52) :
    UnpackedFloat.Sign.ofBitVec (unpackSign (packComponents .binary64 s e m)) = s := by
  delta unpackSign packComponents
  simp only [BitVec.extractLsb]
  rw [BitVec.extractLsb'_append_eq_of_le (by omega), BitVec.extractLsb'_append_eq_of_le (by omega)]
  cases s <;> rfl

/-- A number whose leading bit is in place 52 survives packing. -/
theorem unpack_pack {s : UnpackedFloat.Sign} {m : Nat} {e : Int} (hm : 2 ^ 52 ≤ m ∧ m < 2 ^ 53)
    (he : -1074 ≤ e ∧ e ≤ 971) (hpos : 0 < m) : (Float.Model.pack (.finite s m e hpos)).unpack = .finite s m e hpos := by
  obtain ⟨b, rfl⟩ : ∃ b : Nat, e = b - 1075 := ⟨(e + 1075).toNat, by omega⟩
  have hbiased : ((b : Int) - 1075 + Format.binary64.exponentBias +
      Format.binary64.mantissaBitsWithoutImplicit).toNat = b := by
    rw [show (Format.binary64.exponentBias : Int) = 1023 from rfl,
      show (Format.binary64.mantissaBitsWithoutImplicit : Int) = 52 from rfl]
    omega
  have hpack : UnpackedFloat.pack .binary64 (.finite s m (b - 1075) hpos) =
      packComponents .binary64 s (BitVec.ofNat 11 b) (BitVec.ofNat 52 m) := by
    delta UnpackedFloat.pack
    simp only [hbiased, log2_eq_of_bounds hm]
    rw [if_neg (by omega), if_pos (by decide)]
  have hnotFull : BitVec.ofNat 11 b ≠ -1#11 := by
    intro h
    have := congrArg BitVec.toNat h
    simp at this
    omega
  have hnotEmpty : BitVec.ofNat 11 b ≠ 0#11 := by
    intro h
    have := congrArg BitVec.toNat h
    simp at this
    omega
  have hleading : (1#1 ++ BitVec.ofNat 52 m).toNat = m := by
    rw [BitVec.toNat_append, ← Nat.shiftLeft_add_eq_or_of_lt (BitVec.ofNat 52 m).isLt, BitVec.toNat_ofNat,
      BitVec.toNat_ofNat, Nat.shiftLeft_eq]
    omega
  have hexponent : ((BitVec.ofNat 11 b).toNat : Int) - (Format.binary64.exponentBias +
      Format.binary64.mantissaBitsWithoutImplicit) = b - 1075 := by
    rw [BitVec.toNat_ofNat, Nat.mod_eq_of_lt (by omega)]
    rfl
  show UnpackedFloat.unpack .binary64 (UnpackedFloat.pack .binary64 _) = _
  rw [hpack]
  delta UnpackedFloat.unpack
  dsimp only
  rw [if_neg (by rwa [unpackExponent_packComponents]), if_neg (by rwa [unpackExponent_packComponents]),
    UnpackedFloat.finite.injEq, unpackMantissa_packComponents, unpackExponent_packComponents]
  exact ⟨ofBitVec_unpackSign_packComponents .., hleading, hexponent⟩

/-! ## Natural numbers -/

/-- The number that a natural below `2 ^ 53` is. -/
def natural (n : Nat) : UnpackedFloat :=
  if h : n = 0 then .zero .positive else .finite .positive (aligned n) (n.log2 - 52) (aligned_pos h)

theorem natural_of_ne {n : Nat} (h₀ : n ≠ 0) :
    natural n = .finite .positive (aligned n) (n.log2 - 52) (aligned_pos h₀) := dif_neg h₀

theorem unpack_pack_natural {n : Nat} (h : n < 2 ^ 53) : (Float.Model.pack (natural n)).unpack = natural n := by
  by_cases h₀ : n = 0
  · subst h₀
    rfl
  · have hlog : n.log2 < 53 := (Nat.log2_lt h₀).2 h
    rw [natural_of_ne h₀]
    exact unpack_pack (aligned_bounds h₀ h) (by omega) (aligned_pos h₀)

theorem ofNat_eq_natural {n : Nat} (h : n < 2 ^ 53) : UnpackedFloat.ofNat .binary64 n = natural n := by
  by_cases h₀ : n = 0
  · subst h₀
    rfl
  have hlog : n.log2 < 53 := (Nat.log2_lt h₀).2 h
  have htarget : Format.binary64.targetExponent (totalExponent n 0) = n.log2 - 52 := by
    rw [targetExponent_binary64, totalExponent]
    omega
  have hdecrease : decreaseExponent n 0 (n.log2 - 52) = (aligned n, (n.log2 : Int) - 52) := by
    have hshift : ((0 : Int) - (n.log2 - 52)).toNat = 52 - n.log2 := by omega
    simp only [decreaseExponent, hshift, Nat.shiftLeft_eq, aligned, Prod.mk.injEq, true_and]
    omega
  have hround := roundWithAccuracy_exact (e := n.log2 - 52) 0 (aligned_bounds h₀ h) (by omega)
  rw [pow_zero, Nat.mul_one, Nat.cast_zero, Int.sub_zero] at hround
  have hcompare : compare (n : Int) 0 = .gt := Int.compare_eq_gt.2 (by omega)
  rw [UnpackedFloat.ofNat, UnpackedFloat.ofInt, UnpackedFloat.normalize, hcompare]
  show UnpackedFloat.round .binary64 .positive (n : Int).toNat 0 = natural n
  rw [Int.toNat_natCast, UnpackedFloat.round, htarget, hdecrease, natural_of_ne h₀]
  exact hround

theorem mul_one_natural {n : Nat} (h : n < 2 ^ 53) :
    UnpackedFloat.mul .binary64 (natural n) (.finite .positive (2 ^ 52) (-52) (by decide)) = natural n := by
  by_cases h₀ : n = 0
  · subst h₀
    rfl
  · have hlog : n.log2 < 53 := (Nat.log2_lt h₀).2 h
    rw [natural_of_ne h₀]
    exact roundWithAccuracy_exact 52 (aligned_bounds h₀ h) (by omega)

theorem unpack_ofNat {n : Nat} (h : n < 2 ^ 53) : (Float.ofNat n).toModel.unpack = natural n := by
  have hone : (Float.ofBits 4607182418800017408).toModel.unpack = .finite .positive (2 ^ 52) (-52) (by decide) := rfl
  have hsmall : n.toUInt64.toFloat.toModel.unpack = natural n := by
    have hn : n.toUInt64.toNat = n := by
      rw [Nat.toUInt64, UInt64.toNat_ofNat', Nat.mod_eq_of_lt (by omega)]
    show (Float.Model.pack (UnpackedFloat.ofNat .binary64 n.toUInt64.toNat)).unpack = _
    rw [hn, ofNat_eq_natural h, unpack_pack_natural h]
  have hmul : Float.ofNat n = n.toUInt64.toFloat * Float.ofBits 4607182418800017408 := by
    show Float.ofScientific n false 0 = _
    rw [Float.ofScientific, dif_pos ⟨h, by decide⟩]
    rfl
  rw [hmul]
  show (Float.Model.pack (UnpackedFloat.mul .binary64 n.toUInt64.toFloat.toModel.unpack
    (Float.ofBits 4607182418800017408).toModel.unpack)).unpack = _
  rw [hsmall, hone, mul_one_natural h, unpack_pack_natural h]

theorem toInt_natural {n : Nat} (h : n < 2 ^ 53) (lo hi : Int) : UnpackedFloat.toInt lo hi (natural n) = n := by
  by_cases h₀ : n = 0
  · subst h₀
    rfl
  have hlog : n.log2 < 53 := (Nat.log2_lt h₀).2 h
  have hkeep : decreaseExponent (aligned n) (n.log2 - 52) 0 = (aligned n, (n.log2 : Int) - 52) := by
    have hshift : ((n.log2 : Int) - 52).toNat = 0 := by omega
    simp only [decreaseExponent, Int.sub_zero, hshift, Nat.shiftLeft_zero, Nat.cast_zero]
  have hshift := shiftToExponent_exact n (52 - n.log2) (n.log2 - 52)
  rw [show (n.log2 : Int) - 52 + (52 - n.log2 : Nat) = 0 by omega] at hshift
  rw [natural_of_ne h₀]
  show roundToInt .positive (aligned n) (n.log2 - 52) = n
  simp only [roundToInt, hkeep]
  rw [show shiftToExponent (aligned n) (n.log2 - 52) .exact 0 = (⟨n, false, false⟩, 0) from hshift]
  rfl

namespace Score

/-- A natural number below `2 ^ 53` is not changed by being made a score. -/
theorem toInt_ofNat {n : Nat} (h : n < 2 ^ 53) : (ofNat n).toInt = n := by
  have habs : (natural n).abs = natural n := by
    by_cases h₀ : n = 0
    · subst h₀
      rfl
    · rw [natural_of_ne h₀]
      rfl
  have hmagnitude : (Float.ofNat n).abs.toUInt64.toNat = n := by
    show ((Float.Model.pack (Float.ofNat n).toModel.unpack.abs).unpack.toUInt64).toNat = n
    rw [unpack_ofNat h, habs, unpack_pack_natural h, UnpackedFloat.toUInt64, toInt_natural h, Int.toNat_natCast,
      UInt64.ofNatClamp, dif_pos (by simp [UInt64.size]; omega)]
    rfl
  have hlt : ¬(ofNat n).lt 0 = true := by
    rw [lt_iff_order, order, show (ofNat n).toFloat = Float.ofNat n from rfl, unpack_ofNat h]
    by_cases h₀ : n = 0
    · subst h₀
      decide
    · rw [natural_of_ne h₀]
      exact (by decide : ¬some Ordering.gt = some Ordering.lt)
  have hbound : Nat.pow 2 63 = 9223372036854775808 := rfl
  simp only [toInt, if_neg hlt, show (ofNat n).toFloat = Float.ofNat n from rfl, hmagnitude, hbound]
  omega

theorem toInt_ofInt {n : Int} (h : 0 ≤ n) (h' : n < 2 ^ 53) : (ofInt n).toInt = n := by
  obtain ⟨k, rfl⟩ := Int.eq_ofNat_of_zero_le h
  exact toInt_ofNat (by omega)

end Score

end Scoresheet
