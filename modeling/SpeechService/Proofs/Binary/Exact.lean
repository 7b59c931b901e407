import Mathlib.Algebra.Order.Field.Power
import Mathlib.Data.List.TakeWhile
import SpeechService.Binary.Decimal
import SpeechService.Proofs.Binary.Halfway

/-!
# The exact value of a decimal

A decimal has an exact value, and its code depends on nothing else (`Decimal.code_congr`): how many
zeros its digits end in does not matter. A decimal that is nearly the value of a code, by one part
in `2 * 10 ^ 16`, has that code (`Decimal.code_eq_of_near`).
-/

namespace SpeechService

open SpeechService.Binary (Format)

/-- A power of ten as the fraction that stands for it. -/
theorem ten_zpow_eq_div (e : Int) :
    (10 : ℚ) ^ e = (Nat.pow 10 e.toNat : Nat) / (Nat.pow 10 (-e).toNat : Nat) := by
  have hten : (10 : ℚ) ≠ 0 := by norm_num
  have hsplit : e = (e.toNat : Int) - ((-e).toNat : Int) := by omega
  nth_rewrite 1 [hsplit]
  rw [zpow_sub₀ hten, zpow_natCast, zpow_natCast, Nat.pow_eq, Nat.pow_eq, Nat.cast_pow,
    Nat.cast_pow, Nat.cast_ofNat]

namespace Decimal

/-- The exact **value** of a decimal. -/
def value (d : Decimal) : ℚ := d.digits * 10 ^ d.exponent

/-- The **figures** of a decimal, as characters. -/
abbrev figures (d : Decimal) : List Char := Nat.toDigits 10 d.digits

/-- How many places a decimal has before the point, below zero if zeros follow it. -/
def places (d : Decimal) : Int := d.exponent + d.figures.length

theorem value_eq_div (d : Decimal) : d.value
    = (d.digits * Nat.pow 10 d.exponent.toNat : Nat) / (Nat.pow 10 (-d.exponent).toNat : Nat) := by
  rw [value, ten_zpow_eq_div, Nat.cast_mul, mul_div_assoc]

theorem value_eq_zero_iff {d : Decimal} : d.value = 0 ↔ d.digits = 0 := by
  have hpow : (10 : ℚ) ^ d.exponent ≠ 0 := by positivity
  rw [value, mul_eq_zero, or_iff_left hpow, Nat.cast_eq_zero]

theorem value_lt_pow_places (d : Decimal) : d.value < 10 ^ d.places := by
  have hdigits : d.digits < 10 ^ d.figures.length :=
    (Nat.length_toDigits_le_iff (by decide) (Nat.length_toDigits_pos)).mp (Nat.le_refl _)
  have hten : (10 : ℚ) ≠ 0 := by norm_num
  rw [value, places, add_comm, zpow_add₀ hten, zpow_natCast]
  exact mul_lt_mul_of_pos_right (by exact_mod_cast hdigits) (by positivity)

theorem pow_places_le_value {d : Decimal} (h : d.digits ≠ 0) : 10 ^ (d.places - 1) ≤ d.value := by
  obtain ⟨k, hk⟩ := Nat.exists_eq_add_one.mpr (Nat.length_toDigits_pos (b := 10) (n := d.digits))
  have hten : (10 : ℚ) ≠ 0 := by norm_num
  have hdigits : 10 ^ k ≤ d.digits := by
    rcases Nat.eq_zero_or_pos k with rfl | hpos
    · exact Nat.pos_of_ne_zero h
    · refine Nat.le_of_not_lt fun hlt => ?_
      have := (Nat.length_toDigits_le_iff (by decide) hpos).mpr hlt
      omega
  have hplaces : d.places - 1 = (k : Int) + d.exponent := by
    rw [places, hk]
    push_cast
    ring
  rw [hplaces, value, zpow_add₀ hten, zpow_natCast]
  exact mul_le_mul_of_nonneg_right (by exact_mod_cast hdigits) (by positivity)

/-- Ten to a power that is at most one value is below another one. -/
private theorem places_le {d d' : Decimal} (h : d.digits ≠ 0) (hvalue : d.value = d'.value) :
    d.places ≤ d'.places := by
  have hlt : (10 : ℚ) ^ (d.places - 1) < 10 ^ d'.places :=
    lt_of_le_of_lt (pow_places_le_value h) (hvalue ▸ d'.value_lt_pow_places)
  have := (zpow_lt_zpow_iff_right₀ (by norm_num)).mp hlt
  omega

/-- The code within the horizon. -/
theorem code_eq_nearest {d : Decimal} (h : d.digits ≠ 0) (hlow : -horizon ≤ d.places)
    (hhigh : d.places ≤ horizon) :
    d.code = Format.double.nearest (d.digits * Nat.pow 10 d.exponent.toNat)
      (Nat.pow 10 (-d.exponent).toNat) := by
  have hnear : ¬(d.digits = 0 ∨ d.places < -horizon) := not_or.mpr ⟨h, Int.not_lt.mpr hlow⟩
  exact (if_neg hnear).trans (if_neg (Int.not_lt.mpr hhigh))

/-- **Decimals of one value** have one code. -/
theorem code_congr {d d' : Decimal} (h : d.value = d'.value) : d.code = d'.code := by
  have hzero : d.digits = 0 ↔ d'.digits = 0 := by
    rw [← value_eq_zero_iff, ← value_eq_zero_iff, h]
  by_cases hdigits : d.digits = 0
  · exact (if_pos (.inl hdigits)).trans (if_pos (.inl (hzero.mp hdigits))).symm
  have hdigits' : d'.digits ≠ 0 := mt hzero.mpr hdigits
  have hplaces : d.places = d'.places :=
    Int.le_antisymm (places_le hdigits h) (places_le hdigits' h.symm)
  have hnearest : Format.double.nearest (d.digits * Nat.pow 10 d.exponent.toNat)
      (Nat.pow 10 (-d.exponent).toNat)
      = Format.double.nearest (d'.digits * Nat.pow 10 d'.exponent.toNat)
        (Nat.pow 10 (-d'.exponent).toNat) := by
    refine Format.nearest_congr _ (Nat.pow_pos (by decide)) (Nat.pow_pos (by decide)) ?_
    rw [← value_eq_div, ← value_eq_div, h]
  -- All that `code` looks at is the same for both.
  rw [places, places] at hplaces
  rw [code, code, hplaces, hnearest]
  simp only [hdigits, hdigits', false_or]

/-- Where a decimal has its places if its code is neither that of zero nor that of infinity. -/
theorem places_of_code {d : Decimal} (hzero : d.code ≠ 0)
    (hinfinite : d.code ≠ Format.double.infinity) :
    d.digits ≠ 0 ∧ -horizon ≤ d.places ∧ d.places ≤ horizon := by
  have hnear : ¬(d.digits = 0 ∨ d.places < -horizon) := fun h => hzero (if_pos h)
  have hfar : ¬horizon < d.places := fun h => hinfinite ((if_neg hnear).trans (if_pos h))
  exact ⟨fun h => hnear (.inl h), Int.not_lt.mp fun h => hnear (.inr h), Int.not_lt.mp hfar⟩

/-! ### Zeros at the end -/

/-- Zeros at the end of the digits of a number are powers of ten that divide it. -/
theorem pow_zeros_dvd (n : Nat) :
    10 ^ ((Nat.toDigits 10 n).reverse.takeWhile (· == '0')).length ∣ n := by
  generalize hzeros : (Nat.toDigits 10 n).reverse.takeWhile (· == '0') = zeros
  have hreplicate : zeros = List.replicate zeros.length '0' := by
    refine List.eq_replicate_of_mem fun c hc => ?_
    rw [← hzeros] at hc
    exact beq_iff_eq.mp (List.mem_takeWhile_imp (p := (· == '0')) hc)
  have hreverse : zeros.reverse = zeros := by rw [hreplicate, List.reverse_replicate]
  have hdigits : Nat.toDigits 10 n
      = ((Nat.toDigits 10 n).reverse.dropWhile (· == '0')).reverse ++ zeros := by
    rw [← List.reverse_inj, List.reverse_append, List.reverse_reverse, hreverse, ← hzeros,
      List.takeWhile_append_dropWhile]
  have hn := Nat.ofDigitChars_ten_toDigits (n := n)
  rw [hdigits, Nat.ofDigitChars_append, hreplicate, Nat.ofDigitChars_replicate_zero] at hn
  exact ⟨_, hn.symm⟩

theorem value_reduced (d : Decimal) : d.reduced.value = d.value := by
  have hten : (10 : ℚ) ≠ 0 := by norm_num
  obtain ⟨k, hk⟩ := pow_zeros_dvd d.digits
  rw [reduced]
  generalize (d.figures.reverse.takeWhile (· == '0')).length = zeros at hk
  rw [value, value, hk, Nat.pow_eq, Nat.mul_div_cancel_left _ (by positivity), zpow_add₀ hten,
    zpow_natCast]
  push_cast
  ring

theorem digits_reduced_le (d : Decimal) : d.reduced.digits ≤ d.digits := Nat.div_le_self _ _

/-! ### Nearby values -/

private theorem two_mul_value_le {f : Format} {code k : Nat}
    (h : 2 * f.units code ≤ 10 ^ k * Nat.pow 2 f.depth) : 2 * f.value code ≤ 10 ^ (k : Int) := by
  rw [Format.value, ← mul_div_assoc, div_le_iff₀ (by positivity), zpow_natCast]
  exact_mod_cast h

private theorem two_mul_zpow_le_value {f : Format} {code k : Nat}
    (h : 2 * Nat.pow 2 f.depth ≤ 10 ^ k * f.units code) :
    2 * (10 : ℚ) ^ (-(k : Int)) ≤ f.value code := by
  have hk : (0 : ℚ) < 10 ^ k := by positivity
  rw [Format.value, le_div_iff₀ (by positivity), zpow_neg, zpow_natCast, mul_right_comm,
    ← div_eq_mul_inv, div_le_iff₀' hk]
  exact_mod_cast h

/-- The finite values above zero are within the horizon. -/
private theorem value_bounds {code : Nat} (hpos : 0 < code)
    (hfinite : code < Format.double.infinity) :
    2 * (10 : ℚ) ^ (-horizon) ≤ Format.double.value code ∧
      2 * Format.double.value code ≤ 10 ^ horizon := by
  have hmono := Format.double.value_strictMono.monotone
  constructor
  · exact le_trans (two_mul_zpow_le_value (k := 400) (by decide +kernel)) (hmono hpos)
  · exact le_trans (mul_le_mul_of_nonneg_left (hmono hfinite.le) (by norm_num))
      (two_mul_value_le (k := 400) (by decide +kernel))

/-- A decimal with a value above zero and within the horizon. -/
private theorem code_eq_nearest_of_value {d : Decimal} (hlow : 10 ^ (-horizon) ≤ d.value)
    (hhigh : d.value < 10 ^ horizon) :
    d.code = Format.double.nearest (d.digits * Nat.pow 10 d.exponent.toNat)
      (Nat.pow 10 (-d.exponent).toNat) := by
  have hten : (1 : ℚ) < 10 := by norm_num
  have hdigits : d.digits ≠ 0 := fun h =>
    absurd (value_eq_zero_iff.mpr h) (lt_of_lt_of_le (by positivity) hlow).ne'
  have hleast := (zpow_lt_zpow_iff_right₀ hten).mp (lt_of_le_of_lt hlow d.value_lt_pow_places)
  have hgreatest := (zpow_lt_zpow_iff_right₀ hten).mp
    (lt_of_le_of_lt (pow_places_le_value hdigits) hhigh)
  exact code_eq_nearest hdigits (by omega) (by omega)

/-- **Near values.** A decimal that is off by at most one part in `2 * 10 ^ 16` of the value of a
code has this code. -/
theorem code_eq_of_near {d : Decimal} {code : Nat} (hpos : 0 < code)
    (hfinite : code < Format.double.infinity)
    (h : 2 * 10 ^ 16 * |d.value - Format.double.value code| ≤ Format.double.value code) :
    d.code = code := by
  obtain ⟨hleast, hgreatest⟩ := value_bounds hpos hfinite
  obtain ⟨below, rfl⟩ := Nat.exists_eq_add_one.mpr hpos
  have hmono := Format.double.value_strictMono
  have hbelow := hmono (Nat.lt_succ_self below)
  have habove := hmono (Nat.lt_succ_self (below + 1))
  have hdown := neg_abs_le (d.value - Format.double.value (below + 1))
  have hup := le_abs_self (d.value - Format.double.value (below + 1))
  have hpow : (0 : ℚ) < 10 ^ (-horizon) := by positivity
  -- The gaps on both sides are wider than one part in `10 ^ 16`.
  have hgap (c : Nat) : Format.double.value (c + 1)
      < 10 ^ 16 * (Format.double.value (c + 1) - Format.double.value c) := by
    have hparts : (2 : ℚ) ^ (Format.double.fractionBits + 1) < 10 ^ 16 := by
      norm_num [Format.double]
    exact lt_of_le_of_lt (Format.double.value_le_gap c)
      (mul_lt_mul_of_pos_right hparts (sub_pos.mpr (hmono (Nat.lt_succ_self c))))
  have hgapBelow := hgap below
  have hgapAbove := hgap (below + 1)
  rw [code_eq_nearest_of_value (by linarith) (by linarith)]
  refine Format.nearest_eq _ (Nat.pow_pos (by decide)) hfinite.le (fun c hc => ?_) ?_
  · have hself := hmono.monotone (Nat.le_of_lt_succ hc)
    have hsucc := hmono.monotone hc
    rw [← value_eq_div]
    linarith
  · rw [← value_eq_div]
    linarith

end Decimal

end SpeechService
