import Scoresheet.Proofs.Ordering
/-!
# When arithmetic gives a number

A NaN comes out of numbers only where two infinities meet.  Rounding never makes one (`isNaN_roundWithAccuracy`), so a
sum of finite numbers is a number, if perhaps an infinite one, and so is half of it (`Score.isNaN_midpoint`); and what
is left of a finite number when another number is taken away is a number as well (`Score.isNaN_sub`).
-/
namespace Scoresheet

open Float.Model (Format UnpackedFloat)
open Float.Model.UnpackedFloat

variable {a b : UnpackedFloat}

theorem isNaN_ite {p : Prop} [Decidable p] (ha : a.isNaN = false) (hb : b.isNaN = false) :
    (if p then a else b).isNaN = false := by
  by_cases h : p
  · rwa [if_pos h]
  · rwa [if_neg h]

theorem isNaN_dite {p : Prop} [Decidable p] {x : p → UnpackedFloat} {y : ¬p → UnpackedFloat}
    (hx : ∀ h, (x h).isNaN = false) (hy : ∀ h, (y h).isNaN = false) : (if h : p then x h else y h).isNaN = false := by
  by_cases h : p
  · rw [dif_pos h]
    exact hx h
  · rw [dif_neg h]
    exact hy h

/-! ## Packing -/

theorem isNaN_unpack_of_ne (s : UnpackedFloat.Sign) {e : BitVec 11} (he : e ≠ -1#11) (m : BitVec 52) :
    (UnpackedFloat.unpack .binary64 (packComponents .binary64 s e m)).isNaN = false := by
  delta UnpackedFloat.unpack
  dsimp only
  rw [if_neg (by rwa [unpackExponent_packComponents])]
  exact isNaN_ite (isNaN_dite (fun _ => rfl) fun _ => rfl) rfl

/-- A number that is packed stays a number, though it may become an infinite one. -/
theorem isNaN_unpack_pack (a : UnpackedFloat) : (Float.Model.pack a).unpack.isNaN = a.isNaN := by
  show (UnpackedFloat.unpack .binary64 (UnpackedFloat.pack .binary64 a)).isNaN = a.isNaN
  cases a with
  | notANumber => rfl
  | infinity s => cases s <;> rfl
  | zero s => cases s <;> rfl
  | finite s m e hm =>
    show (UnpackedFloat.unpack .binary64 (UnpackedFloat.pack .binary64 (.finite s m e hm))).isNaN = false
    delta UnpackedFloat.pack
    dsimp only
    split
    · cases s <;> rfl
    · rename_i hsmall
      split
      · refine isNaN_unpack_of_ne s (fun h => ?_) _
        have hbits := congrArg BitVec.toNat h
        simp at hbits hsmall
        omega
      · exact isNaN_unpack_of_ne s (by decide) _

/-! ## Operations -/

theorem isNaN_roundWithAccuracy (s : UnpackedFloat.Sign) (m : Nat) (e : Int) (acc : Accuracy) :
    (roundWithAccuracy .binary64 s m e acc).isNaN = false := by
  delta roundWithAccuracy
  exact isNaN_dite (fun _ => rfl) fun _ => rfl

theorem isNaN_normalize (m e : Int) (s : UnpackedFloat.Sign) : (UnpackedFloat.normalize .binary64 m e s).isNaN = false := by
  unfold UnpackedFloat.normalize
  split
  · exact isNaN_roundWithAccuracy ..
  · rfl
  · exact isNaN_roundWithAccuracy ..

theorem isNaN_add (ha : a.isFinite = true) (hb : b.isFinite = true) : (add .binary64 a b).isNaN = false := by
  cases a with
  | notANumber => cases ha
  | infinity s => cases ha
  | zero s =>
    cases b with
    | notANumber => cases hb
    | infinity t => cases hb
    | zero t => cases s <;> cases t <;> rfl
    | finite t n f hn => rfl
  | finite s m e hm =>
    cases b with
    | notANumber => cases hb
    | infinity t => cases hb
    | zero t => rfl
    | finite t n f hn => exact isNaN_normalize ..

theorem isNaN_sub (ha : a.isFinite = true) (hb : b.isNaN = false) : (sub .binary64 a b).isNaN = false := by
  cases a with
  | notANumber => cases ha
  | infinity s => cases ha
  | zero s =>
    cases b with
    | notANumber => cases hb
    | infinity t => rfl
    | zero t => cases s <;> cases t <;> rfl
    | finite t n f hn => rfl
  | finite s m e hm =>
    cases b with
    | notANumber => cases hb
    | infinity t => rfl
    | zero t => rfl
    | finite t n f hn => exact isNaN_normalize ..

theorem isNaN_div_finite (ha : a.isNaN = false) (s : UnpackedFloat.Sign) (m : Nat) (e : Int) (hm : 0 < m) :
    (div .binary64 a (.finite s m e hm)).isNaN = false := by
  cases a with
  | notANumber => cases ha
  | infinity t => rfl
  | zero t => rfl
  | finite t n f hn => exact isNaN_roundWithAccuracy ..

theorem isNaN_abs (a : UnpackedFloat) : a.abs.isNaN = a.isNaN := by
  cases a <;> rfl

namespace Score

variable {a b : Score}

/-- An operation gives a number where both operands are numbers and the rule for numbers gives one. -/
theorem isNaN_lift {op : Float → Float → Float} (ha : a.isNaN = false) (hb : b.isNaN = false)
    (hop : (op a.toFloat b.toFloat).isNaN = false) : (lift op a b).isNaN = false := by
  cases a with
  | negativeNaN => exact absurd ha (by decide)
  | number x =>
    cases b with
    | negativeNaN => exact absurd hb (by decide)
    | number y =>
      have hx : x.isNaN = false := ha
      have hy : y.isNaN = false := hb
      have hop : (op x y).isNaN = false := hop
      simp only [lift, hx, hy, hop, Bool.false_eq_true, if_false]
      exact hop

theorem isNaN_of_isFinite (ha : a.isFinite = true) : a.isNaN = false := by
  have ha : a.toFloat.toModel.unpack.isFinite = true := ha
  show a.toFloat.toModel.unpack.isNaN = false
  cases h : a.toFloat.toModel.unpack with
  | notANumber => rw [h] at ha; cases ha
  | _ => rfl

/-- **The point half-way between two finite numbers is a number.** -/
theorem isNaN_midpoint (ha : a.isFinite = true) (hb : b.isFinite = true) : ((a + b) / 2).isNaN = false := by
  have hsum : (a + b).isNaN = false := by
    refine isNaN_lift (isNaN_of_isFinite ha) (isNaN_of_isFinite hb) ?_
    exact (isNaN_unpack_pack _).trans (isNaN_add ha hb)
  refine isNaN_lift hsum (by decide) ?_
  exact (isNaN_unpack_pack _).trans (isNaN_div_finite hsum _ _ _ (by decide))

/-- **A finite number is some number away from every number.** -/
theorem isNaN_sub (ha : a.isFinite = true) (hb : b.isNaN = false) : (a - b).isNaN = false :=
  isNaN_lift (isNaN_of_isFinite ha) hb ((isNaN_unpack_pack _).trans (Scoresheet.isNaN_sub ha hb))

theorem isNaN_abs (a : Score) : a.abs.isNaN = a.isNaN := by
  cases a with
  | negativeNaN => decide
  | number x => exact (isNaN_unpack_pack _).trans (Scoresheet.isNaN_abs _)

end Score

end Scoresheet
