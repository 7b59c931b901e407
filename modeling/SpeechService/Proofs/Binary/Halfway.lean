import Mathlib.Algebra.Order.Field.Rat
import Mathlib.Tactic.FieldSimp
import Mathlib.Tactic.Linarith
import Mathlib.Tactic.Positivity
import Mathlib.Tactic.Ring
import SpeechService.Proofs.Binary.Nearest

/-!
# Halfway between two codes

Rounding to the nearest code turns over in the middle between two neighbours. A fraction strictly
between the middles on both sides of a code is rounded to that code (`Format.nearest_eq`), and only
the value of a fraction matters (`Format.nearest_congr`). The gap between two neighbours is not
small against their values (`Format.value_le_gap`), so that being near to a code is enough.
-/

namespace SpeechService.Binary.Format

variable (f : Format)

/-! ### Values -/

/-- The exact **value** of a code. -/
def value (code : Nat) : ℚ := f.units code / 2 ^ f.depth

/-- The same value as a fraction of natural numbers. -/
theorem value_eq_div (code : Nat) :
    f.value code = (f.units code / (Nat.pow 2 f.depth : Nat) : ℚ) := by
  rw [value, Nat.pow_eq, Nat.cast_pow, Nat.cast_ofNat]

theorem value_strictMono : StrictMono f.value := fun _ _ h =>
  div_lt_div_of_pos_right (Nat.cast_lt.mpr (f.units_strictMono h)) (by positivity)

theorem value_zero : f.value 0 = 0 := by
  rw [value, div_eq_zero_iff]
  exact .inl (Nat.cast_eq_zero.mpr (if_pos f.binade_pos))

theorem pow_depth_pos : 0 < Nat.pow 2 f.depth := Nat.two_pow_pos _

/-- A gap is not small against the values that it separates. -/
theorem value_le_gap (code : Nat) :
    f.value (code + 1) ≤ 2 ^ (f.fractionBits + 1) * (f.value (code + 1) - f.value code) := by
  obtain ⟨s, q, rfl, hq, hs⟩ := f.exists_steps code
  have hbinade : 2 * f.binade = 2 ^ (f.fractionBits + 1) := Nat.pow_succ'.symm
  have hsteps : ((q : ℚ) + 1) ≤ 2 ^ (f.fractionBits + 1) := by
    rw [hbinade] at hq
    exact_mod_cast hq
  rw [value, value, Nat.add_assoc, f.units_add (by omega) hs, f.units_add (by omega) (by omega),
    ← sub_div, ← mul_div_assoc]
  refine div_le_div_of_nonneg_right ?_ (by positivity)
  push_cast
  rw [← sub_mul, add_sub_cancel_left, one_mul]
  exact mul_le_mul_of_nonneg_right hsteps (by positivity)

/-! ### Rounding -/

/-- A fraction strictly between the middles around a code is rounded to it. -/
theorem nearest_eq {num den code : Nat} (hden : 0 < den) (hcode : code ≤ f.infinity)
    (hlow : ∀ below < code, f.value below + f.value (below + 1) < 2 * (num / den : ℚ))
    (hhigh : 2 * (num / den : ℚ) < f.value code + f.value (code + 1)) :
    f.nearest num den = code := by
  have hden' : (0 : ℚ) < den := Nat.cast_pos.mpr hden
  have hdepth : (0 : ℚ) < 2 ^ f.depth := by positivity
  have hmiddle (c : Nat) : f.value c + f.value (c + 1) = f.middle c / 2 ^ f.depth := by
    rw [value, value, middle, Nat.cast_add, add_div]
  have hlow' (below : Nat) (h : below < code) :
      f.middle below * den < 2 * (num * Nat.pow 2 f.depth) := by
    have hbelow := hlow below h
    rw [hmiddle, ← mul_div_assoc, div_lt_div_iff₀ hdepth hden', mul_assoc] at hbelow
    exact_mod_cast hbelow
  have hhigh' : 2 * (num * Nat.pow 2 f.depth) < f.middle code * den := by
    rw [hmiddle, ← mul_div_assoc, div_lt_div_iff₀ hden' hdepth, mul_assoc] at hhigh
    exact_mod_cast hhigh
  obtain ⟨c, hnearest, hupper, hlower⟩ := f.exists_nearest num hden
  have hle : c ≤ code := Nat.le_of_not_lt fun h => Nat.not_le.mpr hhigh' (hlower code h)
  have hge : code ≤ c := Nat.le_of_not_lt fun h => Nat.not_le.mpr (hlow' c h) hupper
  rw [hnearest, Nat.le_antisymm hle hge, Nat.min_eq_left hcode]

theorem nearest_mul (num den : Nat) {k : Nat} (hk : 0 < k) :
    f.nearest (k * num) (k * den) = f.nearest num den := by
  have hspacing (a : Nat) : a * (k * den) = k * (a * den) := Nat.mul_left_comm _ _ _
  have hrest (a b : Nat) : 2 * (k * a + k * b) = k * (2 * (a + b)) := by ring
  simp only [nearest, Nat.mul_assoc k, Nat.mul_div_mul_left _ _ hk, Nat.mul_mod_mul_left, hspacing,
    hrest, Nat.mul_lt_mul_left hk, Nat.mul_left_cancel_iff hk]

/-- Only the value of a fraction matters. -/
theorem nearest_congr {num den num' den' : Nat} (hden : 0 < den) (hden' : 0 < den')
    (h : (num / den : ℚ) = num' / den') : f.nearest num den = f.nearest num' den' := by
  have hcross : num * den' = num' * den := by
    rw [div_eq_div_iff (Nat.cast_ne_zero.mpr hden.ne') (Nat.cast_ne_zero.mpr hden'.ne')] at h
    exact_mod_cast h
  calc f.nearest num den
      = f.nearest (den' * num) (den' * den) := (f.nearest_mul num den hden').symm
    _ = f.nearest (den * num') (den * den') := by
        rw [Nat.mul_comm den' num, hcross, Nat.mul_comm num' den, Nat.mul_comm den' den]
    _ = f.nearest num' den' := f.nearest_mul num' den' hden

/-! ### Exact values -/

/-- An **exact** fraction is not rounded. -/
theorem nearest_of_value_eq {num den code : Nat} (hden : 0 < den) (hcode : code ≤ f.infinity)
    (h : f.value code = (num / den : ℚ)) : f.nearest num den = code := by
  refine f.nearest_eq hden hcode (fun below hbelow => ?_) ?_
  · have hless : f.value below < f.value code := f.value_strictMono hbelow
    have hnext : f.value (below + 1) ≤ f.value code := f.value_strictMono.monotone hbelow
    rw [← h]
    linarith
  · have hnext : f.value code < f.value (code + 1) := f.value_strictMono (Nat.lt_succ_self code)
    rw [← h]
    linarith

/-- A significand that fits the format, doubled any number of times, is the value of a code. -/
theorem exists_value_eq {k : Nat} (hk : k < 2 * f.binade) (hdepth : f.fractionBits ≤ f.depth)
    (j : Nat) : ∃ code, f.value code = k * 2 ^ j := by
  rcases Nat.eq_zero_or_pos k with rfl | hpos
  · exact ⟨0, by rw [value_zero, Nat.cast_zero, zero_mul]⟩
  have hbinade : f.binade = 2 ^ f.fractionBits := rfl
  have hlog : k.log2 ≤ f.fractionBits := by
    rw [hbinade, ← Nat.pow_succ', ← Nat.log2_lt hpos.ne'] at hk
    exact Nat.lt_succ_iff.mp hk
  -- The significand is moved up until it fills the fraction.
  obtain ⟨up, hup⟩ := Nat.exists_eq_add_of_le hlog
  obtain ⟨down, hdown⟩ := Nat.exists_eq_add_of_le hdepth
  have hlow : f.binade ≤ k * 2 ^ up := by
    rw [hbinade, hup, Nat.pow_add]
    exact Nat.mul_le_mul_right _ (Nat.log2_self_le hpos.ne')
  have hhigh : k * 2 ^ up ≤ 2 * f.binade := by
    rw [hbinade, hup, Nat.pow_add, ← Nat.mul_assoc, ← Nat.pow_succ']
    exact Nat.mul_le_mul_right _ Nat.lt_log2_self.le
  refine ⟨(down + k.log2 + j) * f.binade + k * 2 ^ up, ?_⟩
  have hpow : k * 2 ^ up * 2 ^ (down + k.log2 + j) = k * 2 ^ j * 2 ^ f.depth := by
    rw [hdown, hup]
    ring
  rw [value, f.units_add hhigh (.inr hlow), Nat.pow_eq, hpow, div_eq_iff (by positivity)]
  push_cast
  rfl

end SpeechService.Binary.Format
