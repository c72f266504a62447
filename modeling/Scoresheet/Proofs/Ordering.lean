import Mathlib.Algebra.Group.Int.Defs
import Scoresheet.Schema

/-!
# How scores compare

Comparing two numbers the other way round swaps the answer (`compare_swap`), so of two scores that are no NaN one is at
most the other (`Score.le_iff_not_lt`).  The total order is one of bits: scores of the same rank are the same score
(`Score.rank_inj`), and whole parts fit into 64 bits.
-/
namespace Scoresheet

open Float.Model (UnpackedFloat)

theorem compare_swap (a b : UnpackedFloat) : b.compare a = (a.compare b).map Ordering.swap := by
  cases a with
  | notANumber => cases b <;> rfl
  | infinity s =>
    cases b with
    | infinity t => cases s <;> cases t <;> rfl
    | notANumber => cases s <;> rfl
    | zero t => cases s <;> rfl
    | finite t n e' hn => cases s <;> cases t <;> rfl
  | zero s =>
    cases b with
    | infinity t => cases t <;> rfl
    | notANumber => rfl
    | zero t => rfl
    | finite t n e' hn => cases t <;> rfl
  | finite s m e hm =>
    cases b with
    | infinity t => cases s <;> cases t <;> rfl
    | notANumber => cases s <;> rfl
    | zero t => cases s <;> rfl
    | finite t n e' hn =>
      have hswap : ((compare e' e).then (compare n m)) = ((compare e e').then (compare m n)).swap := by
        rw [Ordering.swap_then, ← Std.OrientedOrd.eq_swap, ← Std.OrientedOrd.eq_swap]
      cases s with
      | positive =>
        cases t with
        | positive => exact congrArg some hswap
        | negative => rfl
      | negative =>
        cases t with
        | positive => rfl
        | negative => exact congrArg (some ·.swap) hswap

theorem exists_compare {a b : UnpackedFloat} (ha : a.isNaN = false) (hb : b.isNaN = false) :
    ∃ o, a.compare b = some o := by
  cases a with
  | notANumber => cases ha
  | infinity s =>
    cases b with
    | notANumber => cases hb
    | infinity t => exact ⟨_, rfl⟩
    | zero t => cases s <;> exact ⟨_, rfl⟩
    | finite t n e' hn => cases s <;> exact ⟨_, rfl⟩
  | zero s =>
    cases b with
    | notANumber => cases hb
    | infinity t => cases t <;> exact ⟨_, rfl⟩
    | zero t => exact ⟨_, rfl⟩
    | finite t n e' hn => cases t <;> exact ⟨_, rfl⟩
  | finite s m e hm =>
    cases b with
    | notANumber => cases hb
    | infinity t => cases t <;> exact ⟨_, rfl⟩
    | zero t => cases s <;> exact ⟨_, rfl⟩
    | finite t n e' hn => cases s <;> cases t <;> exact ⟨_, rfl⟩

/-- Nothing but a NaN does not compare. -/
theorem compare_eq_none_iff {a b : UnpackedFloat} : a.compare b = none ↔ a.isNaN = true ∨ b.isNaN = true := by
  constructor
  · intro h
    cases ha : a.isNaN with
    | true => exact .inl rfl
    | false =>
      cases hb : b.isNaN with
      | true => exact .inr rfl
      | false =>
        obtain ⟨o, ho⟩ := exists_compare ha hb
        rw [h] at ho
        cases ho
  · rintro (ha | hb)
    · cases a <;> cases ha
      rfl
    · cases b <;> cases hb
      cases a <;> rfl

theorem toBits_inj {x y : Float} (h : x.toBits = y.toBits) : x = y := by
  obtain ⟨⟨b, hb⟩⟩ := x
  obtain ⟨⟨c, hc⟩⟩ := y
  cases h
  rfl

/-- No number has the bits of a negative NaN, so its place in the total order is that of `negativeNaN` alone. -/
theorem toBits_ne_negativeNaN (x : Float) : x.toBits.toNat ≠ 0xfff8000000000000 := by
  obtain ⟨⟨b, hb⟩⟩ := x
  intro h
  have hbits : b = 0xfff8000000000000 := UInt64.toNat_inj.1 h
  subst hbits
  exact absurd (hb.eq_packedNaN (by decide) (by decide)) (by decide)

namespace Score

variable {a b : Score}

/-! ## Numbers -/

def order (a b : Score) : Option Ordering := a.toFloat.toModel.unpack.compare b.toFloat.toModel.unpack

theorem lt_iff_order : a.lt b = true ↔ a.order b = some .lt := by
  rw [lt, decide_eq_true_eq]
  show decide _ = true ↔ _
  rw [decide_eq_true_eq]
  exact beq_iff_eq

theorem le_iff_order : a.toFloat ≤ b.toFloat ↔ (a.order b).any (·.isLE) = true := by
  show decide _ = true ↔ _
  rw [decide_eq_true_eq]
  rfl

theorem order_swap (a b : Score) : b.order a = (a.order b).map Ordering.swap := compare_swap _ _

theorem order_eq_none_iff : a.order b = none ↔ a.isNaN = true ∨ b.isNaN = true := compare_eq_none_iff

theorem lt_self (a : Score) : a.lt a = false := by
  rw [Bool.eq_false_iff, Ne, lt_iff_order]
  intro h
  have hswap := order_swap a a
  rw [h] at hswap
  cases hswap

theorem isNaN_of_lt (h : a.lt b = true) : a.isNaN = false ∧ b.isNaN = false := by
  have hne : ¬ (a.isNaN = true ∨ b.isNaN = true) := by
    rw [← order_eq_none_iff, lt_iff_order.1 h]
    simp
  simpa using hne

/-- **Of two scores that are no NaN one is at most the other**: it is, where the other is not below it. -/
theorem le_iff_not_lt : a.toFloat ≤ b.toFloat ↔ a.isNaN = false ∧ b.isNaN = false ∧ b.lt a = false := by
  rw [le_iff_order, ← Bool.not_eq_true (b.lt a), lt_iff_order, order_swap a b]
  cases h : a.order b with
  | none =>
    have hnan := order_eq_none_iff.1 h
    simp only [Option.any_none, Bool.false_eq_true, false_iff]
    rintro ⟨ha, hb, -⟩
    simp [ha, hb] at hnan
  | some o =>
    have hnan : ¬ (a.isNaN = true ∨ b.isNaN = true) := by
      rw [← order_eq_none_iff, h]
      simp
    rw [not_or, Bool.not_eq_true, Bool.not_eq_true] at hnan
    cases o <;> simp [hnan]

/-! ## The total order -/

/-- **Scores of the same rank are the same score.** -/
theorem rank_inj (h : a.rank = b.rank) : a = b := by
  have hpow : Nat.pow 2 63 = 9223372036854775808 := rfl
  cases a with
  | negativeNaN =>
    cases b with
    | negativeNaN => rfl
    | number y =>
      have hne := toBits_ne_negativeNaN y
      simp only [rank, hpow] at h
      split at h <;> omega
  | number x =>
    cases b with
    | negativeNaN =>
      have hne := toBits_ne_negativeNaN x
      simp only [rank, hpow] at h
      split at h <;> omega
    | number y =>
      have hbits : x.toBits.toNat = y.toBits.toNat := by
        simp only [rank, hpow] at h
        split at h <;> split at h <;> omega
      rw [toBits_inj (UInt64.toNat_inj.1 hbits)]

theorem le_antisymm (h : a.le b = true) (h' : b.le a = true) : a = b := by
  rw [le_iff] at h h'
  exact rank_inj (by omega)

/-! ## Whole numbers -/

theorem toInt_bounds (a : Score) : -2 ^ 63 ≤ a.toInt ∧ a.toInt < 2 ^ 63 := by
  have hpow : Nat.pow 2 63 = 9223372036854775808 := rfl
  simp only [toInt, hpow]
  split <;> omega

end Score
end Scoresheet
