import Mathlib.Algebra.Order.Floor.Semifield
import Mathlib.Algebra.Order.Group.Abs
import Mathlib.Data.Rat.Floor
import SpeechService.Proofs.Binary.Error

/-!
# Signs and values

The exact **value** of a finite number is its magnitude with its sign. A sign changes no distance
(`abs_signed_sub_signed`), so that a statement about how far two values of one sign are apart is one
about magnitudes.

What acts on the codes alone and leaves the sign as it is does not turn the order of values around
either, as long as it is monotone and keeps zero (`Binary.signed_le_signed`): this is how truncating
a number and scaling it are seen to be monotone.

A value is rounded to an integer by its amount, a half **away from zero** (`roundAway`).
-/

namespace SpeechService

open SpeechService.Binary (Format)

/-! ### Signs -/

section Signs

variable {α : Type} [AddCommGroup α]

/-- A quantity with a **sign**. -/
def signed (negative : Bool) (a : α) : α := if negative then -a else a

@[simp] theorem signed_false (a : α) : signed false a = a := rfl

@[simp] theorem signed_true (a : α) : signed true a = -a := rfl

@[simp] theorem signed_zero (negative : Bool) : signed negative (0 : α) = 0 := by
  cases negative <;> simp

theorem signed_not (negative : Bool) (a : α) : signed (!negative) a = -signed negative a := by
  cases negative <;> simp

theorem signed_sub_signed (negative : Bool) (a b : α) :
    signed negative a - signed negative b = signed negative (a - b) := by
  cases negative <;> simp [neg_add_eq_sub]

theorem mul_signed {K : Type} [Ring K] (negative : Bool) (c a : K) :
    c * signed negative a = signed negative (c * a) := by
  cases negative <;> simp

variable [LinearOrder α]

@[simp] theorem abs_signed (negative : Bool) (a : α) : |signed negative a| = |a| := by
  cases negative <;> simp

/-- A sign changes no distance. -/
theorem abs_signed_sub_signed (negative : Bool) (a b : α) :
    |signed negative a - signed negative b| = |a - b| := by
  rw [signed_sub_signed, abs_signed]

/-- A number is its absolute value with its sign. -/
theorem signed_abs [IsOrderedAddMonoid α] (a : α) : signed (a < 0) |a| = a := by
  by_cases h : a < 0
  · rw [decide_eq_true h, signed_true, abs_of_neg h, neg_neg]
  · rw [decide_eq_false h, signed_false, abs_of_nonneg (not_lt.mp h)]

theorem cast_signed (negative : Bool) (n : ℤ) :
    ((signed negative n : ℤ) : ℚ) = signed negative (n : ℚ) := by
  cases negative <;> simp

end Signs

namespace Binary

variable {f : Format} {x y : Binary f}

/-! ### Values -/

/-- The exact **value** of a finite number. -/
def value (x : Binary f) : ℚ := signed x.negative x.magnitude

/-- The magnitude is the absolute value. -/
theorem abs_value (x : Binary f) : |x.value| = x.magnitude := by
  rw [value, abs_signed, abs_of_nonneg x.magnitude_nonneg]

/-- Magnitudes are in the order of their codes. -/
theorem magnitude_le_iff : x.magnitude ≤ y.magnitude ↔ x.code ≤ y.code :=
  f.value_strictMono.le_iff_le

theorem magnitude_eq_zero_iff : x.magnitude = 0 ↔ x.code = 0 := by
  refine ⟨fun h => ?_, magnitude_of_code_eq_zero⟩
  by_contra hne
  exact (magnitude_pos hne).ne' h

/-- What is monotone on codes and keeps zero does not turn the order of values around. -/
theorem signed_le_signed {α : Type} [AddCommGroup α] [LinearOrder α] [IsOrderedAddMonoid α]
    {g : Nat → α} (hg : Monotone g) (hzero : g 0 = 0) (h : x.value ≤ y.value) :
    signed x.negative (g x.code) ≤ signed y.negative (g y.code) := by
  have hnonneg (code : Nat) : 0 ≤ g code := hzero ▸ hg (Nat.zero_le code)
  have hx := x.magnitude_nonneg
  have hy := y.magnitude_nonneg
  rw [value, value] at h
  generalize x.negative = s at *
  generalize y.negative = t at *
  cases s <;> cases t
  case false.false => exact hg (magnitude_le_iff.mp h)
  case false.true =>
    -- Only a zero is at most a negative number.
    rw [signed_false, signed_true] at h
    have hcode : x.code = 0 := magnitude_eq_zero_iff.mp (by linarith)
    have hcode' : y.code = 0 := magnitude_eq_zero_iff.mp (by linarith)
    rw [hcode, hcode', hzero, signed_zero, signed_zero]
  case true.false => exact le_trans (neg_nonpos.mpr (hnonneg _)) (hnonneg _)
  case true.true => exact neg_le_neg (hg (magnitude_le_iff.mp (neg_le_neg_iff.mp h)))

/-! ### Integers -/

/-- Halves are rounded up in magnitude. -/
theorem rounded_eq_floor (x : Binary f) : x.rounded = ⌊x.magnitude + 1 / 2⌋₊ := by
  have hpow : Nat.pow 2 (f.depth + 1) = 2 * Nat.pow 2 f.depth := Nat.pow_succ'
  have hdepth : ((Nat.pow 2 f.depth : Nat) : ℚ) ≠ 0 := Nat.cast_ne_zero.mpr f.pow_depth_pos.ne'
  rw [rounded, ← Nat.floor_div_eq_div (K := ℚ), hpow, ← units_div_eq_magnitude]
  congr 1
  push_cast
  field_simp

end Binary

/-- A value rounded to an **integer**, a half away from zero. -/
def roundAway (v : ℚ) : ℤ := signed (v < 0) ⌊|v| + 1 / 2⌋₊

/-- Rounding to an integer moves a number by one half at most. -/
theorem abs_roundAway_sub_le (v : ℚ) : |(roundAway v : ℚ) - v| ≤ 1 / 2 := by
  have hle : (⌊|v| + 1 / 2⌋₊ : ℚ) ≤ |v| + 1 / 2 := Nat.floor_le (by positivity)
  have hlt := Nat.lt_floor_add_one (|v| + 1 / 2)
  nth_rewrite 2 [← signed_abs v]
  rw [roundAway, cast_signed, abs_signed_sub_signed, Int.cast_natCast, abs_le]
  constructor <;> linarith

/-- The value of a number is rounded by its magnitude. -/
theorem Binary.roundAway_value {f : Format} (x : Binary f) :
    roundAway x.value = signed x.negative (x.rounded : ℤ) := by
  rw [roundAway, abs_value, ← rounded_eq_floor]
  rcases x.magnitude_nonneg.eq_or_lt with hzero | hpos
  · have hrounded : x.rounded = 0 := by
      rw [rounded_eq_floor, ← hzero, Nat.floor_eq_zero]
      norm_num
    rw [hrounded, Nat.cast_zero, signed_zero, signed_zero]
  · have hsign : decide (x.value < 0) = x.negative := by
      rw [value]
      cases x.negative
      case false => exact decide_eq_false (not_lt.mpr hpos.le)
      case true => exact decide_eq_true (neg_neg_of_pos hpos)
    rw [hsign]

end SpeechService
