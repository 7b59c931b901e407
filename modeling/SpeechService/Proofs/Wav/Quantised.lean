import Mathlib.Algebra.Order.Group.MinMax
import SpeechService.Proofs.Binary.Signed
import SpeechService.Proofs.Wav.RoundTrip

/-!
# Quantised samples

The code of a sample is what exact arithmetic with two roundings gives (`Wav.stepwise`): the sample
is clamped to the range from -1 to 1, its product with the full scale is rounded to the nearest
number of 32 bits, and this is rounded to an integer, a half away from zero. The code is computed
from the magnitude alone, and the first theorems here say that this comes to the same.

Two roundings are not one: near a half, the first rounding may decide the second. Still the code is
off by no more than a half and one part in `2 ^ 10`, since up to the full scale the numbers of 32
bits are at most `2 ^ -9` apart. Both roundings are monotone and leave the sign alone, and so is the
code. `Wav.pcm_quantises` says all this of every bit pattern and of the samples of every file.
-/

namespace SpeechService.Wav

open SpeechService.Binary (Format)

/-! ### Steps -/

/-- One, or minus one. -/
def unit (negative : Bool) : Single := ⟨negative, 0x3F800000, by decide⟩

/-- A sample **clamped** to the range from -1 to 1. -/
def clamped (x : Single) : Single :=
  if x.value < -1 then unit true else if 1 < x.value then unit false else x

/-- A clamped sample scaled to the full scale: a product that is rounded once. -/
def scaled (x : Single) : Single := (clamped x).mul (.ofNat .single fullScale)

/-- An integer as a code of 16 bits; what is beyond the limits stays at the limit. -/
def saturated (n : ℤ) : ℤ := max (-32768) (min n 32767)

/-- The code of a sample, **step by step**. -/
def stepwise (x : Single) : ℤ :=
  if x.isFinite then saturated (roundAway (scaled x).value) else 0

/-- An exact value **clipped** to the range from -1 to 1. -/
def clip (v : ℚ) : ℚ := max (-1) (min v 1)

/-! ### Clamping -/

theorem units_unit (negative : Bool) : (unit negative).units = one := by
  cases negative <;> decide +kernel

theorem magnitude_unit (negative : Bool) : (unit negative).magnitude = 1 := by
  have hdepth : ((Nat.pow 2 (Format.depth .single) : Nat) : ℚ) ≠ 0 :=
    Nat.cast_ne_zero.mpr (Format.pow_depth_pos _).ne'
  rw [← Binary.units_div_eq_magnitude, units_unit, one, div_self hdepth]

/-- Clipping limits the magnitude and keeps the sign. -/
theorem clip_signed (negative : Bool) {m : ℚ} (hm : 0 ≤ m) :
    clip (signed negative m) = signed negative (min m 1) := by
  have hone : min (-m) 1 = -m := min_eq_left (by linarith)
  cases negative with
  | false => exact max_eq_right (le_trans (by norm_num) (le_min hm one_pos.le))
  | true => rw [clip, signed_true, signed_true, hone, max_comm, max_neg_neg]

/-- Clamping leaves the sign alone, and takes the lower one of two codes. -/
theorem clamped_eq (x : Single) : (clamped x).negative = x.negative
    ∧ (clamped x).code = min x.code (unit false).code := by
  have hone : x.magnitude ≤ 1 ↔ x.code ≤ (unit false).code :=
    magnitude_unit false ▸ Binary.magnitude_le_iff
  have hbeyond (h : 1 < x.magnitude) : (unit false).code = min x.code (unit false).code :=
    (min_eq_right (not_le.mp (hone.not.mp h.not_ge)).le).symm
  have hvalue : x.value = signed x.negative x.magnitude := rfl
  have hnonneg := x.magnitude_nonneg
  rw [clamped]
  -- The bounds are compared as numbers, and the sign tells which one may be passed.
  generalize hsign : x.negative = negative at *
  split
  case isTrue hbelow =>
    cases negative with
    | false => exact absurd hbelow (by rw [hvalue, signed_false]; linarith)
    | true =>
      rw [hvalue, signed_true] at hbelow
      exact ⟨rfl, hbeyond (by linarith)⟩
  case isFalse hbelow =>
    split
    case isTrue habove =>
      cases negative with
      | false => exact ⟨rfl, hbeyond (by rwa [hvalue] at habove)⟩
      | true => exact absurd habove (by rw [hvalue, signed_true]; linarith)
    case isFalse habove =>
      have hle : x.magnitude ≤ 1 := by
        rw [← Binary.abs_value]
        exact abs_le.mpr ⟨not_lt.mp hbelow, not_lt.mp habove⟩
      exact ⟨hsign, (min_eq_left (hone.mp hle)).symm⟩

theorem units_clamped (x : Single) : (clamped x).units = min x.units one := by
  rw [Binary.units, (clamped_eq x).2, (Format.units_strictMono .single).monotone.map_min,
    ← units_unit false]
  rfl

/-- A sample that is clamped has a magnitude of one at most. -/
theorem magnitude_clamped (x : Single) : (clamped x).magnitude = min x.magnitude 1 := by
  rw [Binary.magnitude, (clamped_eq x).2, (Format.value_strictMono .single).monotone.map_min,
    ← magnitude_unit false]
  rfl

/-- Clamping a number is clipping its value. -/
theorem value_clamped (x : Single) : (clamped x).value = clip x.value := by
  rw [Binary.value, (clamped_eq x).1, magnitude_clamped, Binary.value,
    clip_signed _ x.magnitude_nonneg]

/-! ### Scaling -/

/-- The full scale is a number of 32 bits. -/
theorem units_ofNat_fullScale :
    (Binary.ofNat .single fullScale).units = fullScale * one := by
  decide +kernel

/-- Scaling keeps the sign. -/
theorem negative_scaled (x : Single) : (scaled x).negative = x.negative := by
  rw [scaled, Binary.mul, Binary.ofRatio, (clamped_eq x).1]
  exact Bool.xor_false _

/-- Nothing is scaled beyond the full scale. -/
theorem code_scaled_le (x : Single) : (scaled x).code ≤ (Binary.ofNat .single fullScale).code :=
  Binary.code_mul_le (by rw [units_clamped]; exact Nat.min_le_right _ _)

/-- The product has the magnitude from which the code is computed. -/
theorem rounded_scaled (x : Single) : (scaled x).rounded = amplitude x := by
  have hcode : (scaled x).code
      = Format.nearest .single (min x.units one * fullScale) one := by
    -- The product of the numbers and that of the integers differ by a common factor.
    have hcommon : min x.units one * (fullScale * one) = one * (min x.units one * fullScale) := by
      rw [← Nat.mul_assoc, Nat.mul_comm]
    rw [scaled, Binary.mul, Binary.ofRatio, units_clamped, units_ofNat_fullScale, hcommon,
      Binary.pow_two_mul_depth]
    exact Format.nearest_mul .single _ _ (Format.pow_depth_pos _)
  rw [amplitude, Binary.rounded, Binary.rounded, Binary.units, Binary.units, hcode]
  rfl

/-- Up to the full scale, one rounding is off by at most one part in `2 ^ 10`. -/
theorem abs_magnitude_scaled_sub_le (x : Single) :
    |(scaled x).magnitude - 32767 * min x.magnitude 1| ≤ 1 / 2 ^ 10 := by
  have hscale : (Binary.ofNat .single fullScale).magnitude = 32767 := by
    have hone : ((one : Nat) : ℚ) ≠ 0 := Nat.cast_ne_zero.mpr (Format.pow_depth_pos _).ne'
    rw [← Binary.units_div_eq_magnitude, units_ofNat_fullScale, Nat.cast_mul, ← one,
      mul_div_cancel_right₀ _ hone, fullScale, Nat.cast_ofNat]
  -- The full scale lies in the binade whose steps are `2 ^ 140` units wide.
  have htop : (Binary.ofNat .single fullScale).code < (140 + 2) * Format.binade .single := by
    decide +kernel
  have hcode := Nat.lt_of_le_of_lt (code_scaled_le x) htop
  have herror := Format.abs_nearest_sub_le .single (Binary.pow_two_mul_depth_pos .single)
    (Nat.lt_trans hcode (by decide)) hcode
  rw [Binary.mul_ratio, magnitude_clamped, hscale, mul_comm _ (32767 : ℚ)] at herror
  have hwidth : (2 : ℚ) ^ 140 / 2 ^ (Format.depth .single + 1) = 1 / 2 ^ 10 := by
    norm_num [Format.depth, Format.single]
  rw [hwidth] at herror
  exact herror

/-! ### Codes -/

/-- The code of a finite sample has its sign. -/
theorem pcm_of_isFinite {x : Single} (h : x.isFinite = true) :
    pcm x = signed x.negative (amplitude x : ℤ) := by
  rw [pcm, if_pos h, signed]

/-- What is no number or infinite is coded as silence. -/
theorem pcm_of_not_isFinite {x : Single} (h : x.isFinite = false) : pcm x = 0 := by
  rw [pcm, h]
  rfl

/-- The last step, before the code is stored in 16 bits. -/
theorem roundAway_scaled {x : Single} (h : x.isFinite = true) :
    roundAway (scaled x).value = pcm x := by
  rw [Binary.roundAway_value, negative_scaled, rounded_scaled, pcm_of_isFinite h]

/-- No code needs to be saturated. -/
theorem saturated_pcm (x : Single) : saturated (pcm x) = pcm x := by
  have hbounded := pcm_bounded x
  rw [saturated]
  omega

/-- **Steps.** Every code is what the steps come to. -/
theorem pcm_eq_stepwise (x : Single) : pcm x = stepwise x := by
  rw [stepwise]
  split
  case isTrue h => rw [roundAway_scaled h, saturated_pcm]
  case isFalse h => exact pcm_of_not_isFinite (Bool.eq_false_iff.mpr h)

/-- **Two roundings.** -/
theorem abs_pcm_sub_le {x : Single} (h : x.isFinite = true) :
    |(pcm x : ℚ) - 32767 * clip x.value| ≤ 1 / 2 + 1 / 2 ^ 10 := by
  have hinteger := abs_roundAway_sub_le (scaled x).value
  have hscaled : |(scaled x).value - 32767 * clip x.value| ≤ 1 / 2 ^ 10 := by
    rw [Binary.value, Binary.value, clip_signed _ x.magnitude_nonneg, mul_signed, negative_scaled,
      abs_signed_sub_signed]
    exact abs_magnitude_scaled_sub_le x
  rw [roundAway_scaled h] at hinteger
  exact le_trans (abs_sub_le _ _ _) (add_le_add hinteger hscaled)

/-- Two roundings are not one: this product is less than 16384 and a half, but is rounded to it
first. -/
example :
    let x := Binary.ofBits .single 0x3F000200
    2 * (x.units * fullScale) < (2 * 16384 + 1) * one ∧ pcm x = 16385 := by
  decide +kernel

/-- The code of the opposite sample is the opposite code. -/
theorem pcm_neg (x : Single) : pcm x.neg = -pcm x := by
  have hfinite : x.neg.isFinite = x.isFinite := rfl
  cases h : x.isFinite with
  | false => rw [pcm_of_not_isFinite h, pcm_of_not_isFinite (hfinite.trans h), neg_zero]
  | true =>
    rw [pcm_of_isFinite h, pcm_of_isFinite (hfinite.trans h)]
    exact signed_not _ _

/-- The **loudness** of a code of 32 bits: the code of the sample that it is the magnitude of. -/
def loudness (code : Nat) : ℤ :=
  (Binary.ofRatio .single false (min (Format.units .single code) one * fullScale) one).rounded

/-- A louder sample has no softer code. -/
theorem loudness_mono {a b : Nat} (hab : a ≤ b) : loudness a ≤ loudness b := by
  have hunits := (Format.units_strictMono .single).monotone hab
  have hcode := Format.nearest_mono .single (Format.pow_depth_pos .single)
    (Nat.mul_le_mul_right fullScale (min_le_min_right one hunits))
  have htwice := Nat.mul_le_mul_left 2 ((Format.units_strictMono .single).monotone hcode)
  exact Int.ofNat_le.mpr (Nat.div_le_div_right (Nat.add_le_add_right htwice _))

theorem loudness_zero : loudness 0 = 0 := by
  decide +kernel

/-- Clamping does not change the code. -/
theorem loudness_clamped (x : Single) : loudness (clamped x).code = amplitude x := by
  have hunits : Format.units .single (clamped x).code = min x.units one := units_clamped x
  rw [loudness, hunits, min_assoc, min_self]
  rfl

/-- **Order.** -/
theorem pcm_le_pcm {x y : Single} (hx : x.isFinite = true) (hy : y.isFinite = true)
    (h : clip x.value ≤ clip y.value) : pcm x ≤ pcm y := by
  rw [← value_clamped, ← value_clamped] at h
  have hle := Binary.signed_le_signed (fun _ _ => loudness_mono) loudness_zero h
  rwa [loudness_clamped, loudness_clamped, (clamped_eq x).1, (clamped_eq y).1,
    ← pcm_of_isFinite hx, ← pcm_of_isFinite hy] at hle

/-! ### Every sample -/

/-- What the code of a sample may be. -/
structure Quantised (x : Single) (code : ℤ) : Prop where
  /-- The least code of 16 bits never occurs. -/
  bounded : |code| ≤ 32767
  silent : x.isFinite = false → code = 0
  near : x.isFinite = true → |(code : ℚ) - 32767 * clip x.value| ≤ 1 / 2 + 1 / 2 ^ 10

/-- Every sample is quantised by its code. -/
theorem quantised_pcm (x : Single) : Quantised x (pcm x) where
  bounded := abs_le.mpr (pcm_bounded x)
  silent := pcm_of_not_isFinite
  near := abs_pcm_sub_le

/-- How samples are quantised. -/
structure Quantisation : Prop where
  /-- Every code is what the steps come to. -/
  stepwise : ∀ x, pcm x = stepwise x
  /-- The last of the steps leaves an integer as it is. -/
  unsaturated : ∀ x : Single, x.isFinite = true →
    saturated (roundAway (scaled x).value) = roundAway (scaled x).value
  quantised : ∀ x, Quantised x (pcm x)
  odd : ∀ x, pcm x.neg = -pcm x
  monotone : ∀ x y : Single, x.isFinite = true → y.isFinite = true →
    clip x.value ≤ clip y.value → pcm x ≤ pcm y
  /-- A file holds the codes of its samples, in order and to the end. -/
  encoded : ∀ c s, encode c = .ok s → ∃ codes,
    readCodes? (s.drop (headerSize c.channels)) = some codes
      ∧ List.Forall₂ Quantised c.samples codes

/-- **Quantisation**, of every bit pattern and in every file. -/
theorem pcm_quantises : Quantisation where
  stepwise := pcm_eq_stepwise
  unsaturated := fun x h => by rw [roundAway_scaled h, saturated_pcm]
  quantised := quantised_pcm
  odd := pcm_neg
  monotone := fun _ _ => pcm_le_pcm
  encoded := by
    intro c s h
    obtain ⟨-, -, -, rfl⟩ := encode_eq_ok h
    refine ⟨_, readCodes?_drop_file _ _ _, ?_⟩
    rw [List.forall₂_map_right_iff]
    exact List.forall₂_same.mpr fun x _ => quantised_pcm x

end SpeechService.Wav
