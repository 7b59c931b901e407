import Mathlib.Tactic.GCongr
import Mathlib.Tactic.NormNum
import SpeechService.Proofs.Binary.Halfway

/-!
# Errors of rounding

A rounding moves a value by a factor close to one, and by half the least magnitude where the codes
are evenly spaced (`Format.apart_nearest`). What several roundings do together is kept as the number
of such factors and a rest that does not grow with the values (`Format.Apart`).

Nothing is rounded to infinity unless it is beyond the middle between the greatest magnitude and the
one that would follow it (`Format.le_of_nearest_eq_infinity`).
-/

namespace SpeechService.Binary

namespace Format

variable (f : Format)

/-- The factor by which one rounding moves a value at most. -/
def step : ℚ := 1 + 1 / 2 ^ (f.fractionBits + 1)

/-- Half the least magnitude. -/
def grain : ℚ := 1 / 2 ^ (f.depth + 1)

theorem one_le_step : 1 ≤ f.step := le_add_of_nonneg_right (by positivity)

theorem step_pos : 0 < f.step := lt_of_lt_of_le one_pos f.one_le_step

theorem grain_pos : 0 < f.grain := by
  rw [grain]
  positivity

theorem value_nonneg (code : Nat) : 0 ≤ f.value code := by
  rw [value]
  positivity

/-! ### Being apart -/

/-- Two values are **apart** by no more than `k` roundings and a rest. -/
structure Apart (k : Nat) (rest x y : ℚ) : Prop where
  le : x ≤ f.step ^ k * y + rest
  ge : y ≤ f.step ^ k * x + rest

namespace Apart

variable {f} {k k' : Nat} {r r' x y z x' y' : ℚ}

theorem symm (h : f.Apart k r x y) : f.Apart k r y x := ⟨h.ge, h.le⟩

theorem refl (x : ℚ) : f.Apart 0 0 x x := ⟨by simp, by simp⟩

theorem mono (h : f.Apart k r x y) (hx : 0 ≤ x) (hy : 0 ≤ y) (hk : k ≤ k') (hr : r ≤ r') :
    f.Apart k' r' x y := by
  have hpow : f.step ^ k ≤ f.step ^ k' := pow_le_pow_right₀ f.one_le_step hk
  exact ⟨le_trans h.le (by gcongr), le_trans h.ge (by gcongr)⟩

/-- Roundings add up from one value to the next, and every rest grows with the roundings that come
after it. -/
theorem trans (h : f.Apart k r x y) (h' : f.Apart k' r' y z) (hr : 0 ≤ r) (hr' : 0 ≤ r') :
    f.Apart (k + k') (f.step ^ k * r' + f.step ^ k' * r) x z := by
  have hone (n : Nat) : 1 ≤ f.step ^ n := one_le_pow₀ f.one_le_step
  have hpos (n : Nat) : 0 ≤ f.step ^ n := pow_nonneg f.step_pos.le n
  constructor
  · calc x ≤ f.step ^ k * y + r := h.le
      _ ≤ f.step ^ k * (f.step ^ k' * z + r') + r := by
          gcongr
          exacts [hpos k, h'.le]
      _ = f.step ^ (k + k') * z + (f.step ^ k * r' + 1 * r) := by ring
      _ ≤ f.step ^ (k + k') * z + (f.step ^ k * r' + f.step ^ k' * r) := by
          gcongr
          exact hone k'
  · calc z ≤ f.step ^ k' * y + r' := h'.ge
      _ ≤ f.step ^ k' * (f.step ^ k * x + r) + r' := by
          gcongr
          exacts [hpos k', h.ge]
      _ = f.step ^ (k + k') * x + (1 * r' + f.step ^ k' * r) := by ring
      _ ≤ f.step ^ (k + k') * x + (f.step ^ k * r' + f.step ^ k' * r) := by
          gcongr
          exact hone k

/-- Roundings of the factors are roundings of the product. -/
theorem mul (h : f.Apart k 0 x y) (h' : f.Apart k' 0 x' y') (hx : 0 ≤ x) (hy : 0 ≤ y)
    (hx' : 0 ≤ x') (hy' : 0 ≤ y') : f.Apart (k + k') 0 (x * x') (y * y') := by
  have hpos (n : Nat) : 0 ≤ f.step ^ n := pow_nonneg f.step_pos.le n
  have hle : x ≤ f.step ^ k * y := by simpa using h.le
  have hle' : x' ≤ f.step ^ k' * y' := by simpa using h'.le
  have hge : y ≤ f.step ^ k * x := by simpa using h.ge
  have hge' : y' ≤ f.step ^ k' * x' := by simpa using h'.ge
  constructor
  · calc x * x' ≤ (f.step ^ k * y) * (f.step ^ k' * y') := by
          gcongr
          exact mul_nonneg (hpos k) hy
      _ = f.step ^ (k + k') * (y * y') + 0 := by ring
  · calc y * y' ≤ (f.step ^ k * x) * (f.step ^ k' * x') := by
          gcongr
          exact mul_nonneg (hpos k) hx
      _ = f.step ^ (k + k') * (x * x') + 0 := by ring

/-- A division by a constant divides the rest. -/
theorem div_const (h : f.Apart k r x y) (hz : 0 ≤ z) : f.Apart k (r / z) (x / z) (y / z) := by
  constructor
  · calc x / z ≤ (f.step ^ k * y + r) / z := by
          gcongr
          exact h.le
      _ = f.step ^ k * (y / z) + r / z := by ring
  · calc y / z ≤ (f.step ^ k * x + r) / z := by
          gcongr
          exact h.ge
      _ = f.step ^ k * (x / z) + r / z := by ring

/-- Roundings of a divisor are roundings of the quotient, since both bounds are multiplicative. -/
theorem const_div (h : f.Apart k 0 x y) (hx : 0 < x) (hy : 0 < y) (hz : 0 ≤ z) :
    f.Apart k 0 (z / x) (z / y) := by
  have hle : x ≤ f.step ^ k * y := by simpa using h.le
  have hge : y ≤ f.step ^ k * x := by simpa using h.ge
  constructor
  · rw [add_zero, div_le_iff₀ hx]
    calc z = z / y * y := (div_mul_cancel₀ z hy.ne').symm
      _ ≤ z / y * (f.step ^ k * x) := by gcongr
      _ = f.step ^ k * (z / y) * x := by ring
  · rw [add_zero, div_le_iff₀ hy]
    calc z = z / x * x := (div_mul_cancel₀ z hx.ne').symm
      _ ≤ z / x * (f.step ^ k * y) := by gcongr
      _ = f.step ^ k * (z / x) * y := by ring

end Apart

/-! ### One rounding -/

variable {f}

/-- The middle above a code as a bound from above. -/
theorem two_mul_le_iff {num den : Nat} (hden : 0 < den) (code : Nat) :
    2 * (num / den : ℚ) ≤ f.value code + f.value (code + 1) ↔
      2 * (num * Nat.pow 2 f.depth) ≤ f.middle code * den := by
  have hden' : (0 : ℚ) < den := Nat.cast_pos.mpr hden
  have hdepth : (0 : ℚ) < 2 ^ f.depth := by positivity
  rw [value, value, ← add_div, ← mul_div_assoc, div_le_div_iff₀ hden' hdepth, mul_assoc, middle]
  exact_mod_cast Iff.rfl

/-- The middle above a code as a bound from below. -/
theorem le_two_mul_iff {num den : Nat} (hden : 0 < den) (code : Nat) :
    f.value code + f.value (code + 1) ≤ 2 * (num / den : ℚ) ↔
      f.middle code * den ≤ 2 * (num * Nat.pow 2 f.depth) := by
  have hden' : (0 : ℚ) < den := Nat.cast_pos.mpr hden
  have hdepth : (0 : ℚ) < 2 ^ f.depth := by positivity
  rw [value, value, ← add_div, ← mul_div_assoc, div_le_div_iff₀ hdepth hden', mul_assoc, middle]
  exact_mod_cast Iff.rfl

variable (f)

/-- A gap is small against the value below it, unless the codes are evenly spaced. -/
theorem gap_le (code : Nat) :
    f.value (code + 1) ≤ f.value code + (f.value code / 2 ^ f.fractionBits + 1 / 2 ^ f.depth) := by
  obtain ⟨s, q, rfl, hq, hs⟩ := f.exists_steps code
  have hbinade : (f.binade : ℚ) = 2 ^ f.fractionBits := by
    rw [binade, Nat.pow_eq, Nat.cast_pow, Nat.cast_ofNat]
  have hpow : ((Nat.pow 2 s : Nat) : ℚ) = 2 ^ s := by rw [Nat.pow_eq, Nat.cast_pow, Nat.cast_ofNat]
  have hwidth : (2 : ℚ) ^ s ≤ q * 2 ^ s / 2 ^ f.fractionBits + 1 := by
    -- In the lowest binades a step is one unit, and in all others it is small against the code.
    rcases hs with rfl | hle
    · rw [pow_zero]
      exact le_add_of_nonneg_left (by positivity)
    · have hq' : (2 : ℚ) ^ f.fractionBits ≤ q := hbinade ▸ Nat.cast_le.mpr hle
      refine le_add_of_le_of_nonneg ?_ one_pos.le
      rw [le_div_iff₀ (by positivity), mul_comm]
      gcongr
  rw [value, value, Nat.add_assoc, f.units_add (by omega) hs, f.units_add (by omega) (by omega),
    Nat.cast_mul, Nat.cast_mul, hpow, Nat.cast_add, Nat.cast_one]
  calc ((q : ℚ) + 1) * 2 ^ s / 2 ^ f.depth
      = (q * 2 ^ s + 2 ^ s) / 2 ^ f.depth := by ring
    _ ≤ (q * 2 ^ s + (q * 2 ^ s / 2 ^ f.fractionBits + 1)) / 2 ^ f.depth := by gcongr
    _ = _ := by ring

/-- **One rounding.** -/
theorem apart_nearest {num den : Nat} (hden : 0 < den) (h : f.nearest num den < f.infinity) :
    f.Apart 1 f.grain (f.value (f.nearest num den)) (num / den) := by
  obtain ⟨code, hnearest, hupper, hlower⟩ := f.exists_nearest num hden
  obtain rfl : f.nearest num den = code := by omega
  generalize f.nearest num den = code at *
  -- Half of a gap is what one rounding may change.
  have hhalf (c : Nat) : f.value (c + 1)
      ≤ f.value c + 2 * ((f.step - 1) * f.value c + f.grain) := by
    refine le_trans (f.gap_le c) (le_of_eq ?_)
    rw [step, grain]
    ring
  have hstep : 0 ≤ f.step - 1 := sub_nonneg.mpr f.one_le_step
  rw [← two_mul_le_iff hden] at hupper
  constructor
  · cases code with
    | zero =>
      have hzero := f.value_zero
      have hgrain := f.grain_pos
      have hvalue : 0 ≤ f.step ^ 1 * (num / den : ℚ) :=
        mul_nonneg (pow_nonneg f.step_pos.le 1) (by positivity)
      linarith
    | succ c =>
      -- The fraction is above the middle below the code, and so above the code before it.
      have hbelow := (le_two_mul_iff hden c).mpr (hlower c (Nat.lt_succ_self c))
      have hle : f.value c ≤ num / den := by
        have hmono := f.value_strictMono.monotone (Nat.le_succ c)
        rw [Nat.succ_eq_add_one] at hmono
        linarith
      have hmul := mul_le_mul_of_nonneg_left hle hstep
      have := hhalf c
      linarith
  · have := hhalf code
    linarith

/-- Below the end of a binade, one rounding moves a value by half a step of this binade at most. -/
theorem abs_nearest_sub_le {num den s : Nat} (hden : 0 < den)
    (hfinite : f.nearest num den < f.infinity) (h : f.nearest num den < (s + 2) * f.binade) :
    |f.value (f.nearest num den) - num / den| ≤ 2 ^ s / 2 ^ (f.depth + 1) := by
  obtain ⟨code, hnearest, hupper, hlower⟩ := f.exists_nearest num hden
  obtain rfl : f.nearest num den = code := by omega
  generalize f.nearest num den = code at *
  -- No gap below the end of the binade is wider than its steps.
  have hgap {c : Nat} (hc : c ≤ code) :
      f.value (c + 1) ≤ f.value c + 2 * (2 ^ s / 2 ^ (f.depth + 1)) := by
    have hunits : (f.units (c + 1) : ℚ) ≤ f.units c + 2 ^ s := by
      have := f.units_succ_le (Nat.lt_of_le_of_lt hc h)
      rw [Nat.pow_eq] at this
      exact_mod_cast this
    have hstep : 2 * ((2 : ℚ) ^ s / 2 ^ (f.depth + 1)) = 2 ^ s / 2 ^ f.depth := by
      rw [pow_succ]
      field_simp
    rw [hstep, value, value, ← add_div]
    exact div_le_div_of_nonneg_right hunits (by positivity)
  rw [← two_mul_le_iff hden] at hupper
  rw [abs_le]
  constructor
  · have := hgap le_rfl
    linarith
  · cases code with
    | zero =>
      have hzero := f.value_zero
      have hvalue : (0 : ℚ) ≤ num / den + 2 ^ s / 2 ^ (f.depth + 1) := by positivity
      linarith
    | succ c =>
      have hbelow := (le_two_mul_iff hden c).mpr (hlower c (Nat.lt_succ_self c))
      have := hgap (Nat.le_succ c)
      linarith

/-- Infinity is one step above the greatest finite code: the first step of a further binade. -/
theorem units_infinity (h : 3 ≤ 2 ^ f.exponentBits) :
    f.units f.infinity = f.binade * 2 ^ (2 ^ f.exponentBits - 2) ∧
      f.units (f.infinity - 1) + 2 ^ (2 ^ f.exponentBits - 3) = f.units f.infinity := by
  have hb := f.binade_pos
  rw [infinity, Nat.pow_eq]
  obtain ⟨s, hs⟩ := Nat.exists_eq_add_of_le' h
  rw [hs]
  -- Both codes are written as a number of whole binades and a place in the last one.
  have hinfinity : (s + 3 - 1) * f.binade = (s + 1) * f.binade + f.binade := by
    rw [← Nat.succ_mul]
    rfl
  have hgreatest : (s + 3 - 1) * f.binade - 1 = s * f.binade + (2 * f.binade - 1) := by
    rw [hinfinity, Nat.succ_mul]
    omega
  have hunits : f.units ((s + 3 - 1) * f.binade) = f.binade * 2 ^ (s + 1) := by
    rw [hinfinity, f.units_add (by omega) (.inr le_rfl), Nat.pow_eq]
  refine ⟨hunits, ?_⟩
  have hlast : 2 * f.binade - 1 + 1 = 2 * f.binade := by omega
  rw [hunits, hgreatest, f.units_add (by omega) (.inr (by omega)), Nat.pow_eq]
  calc (2 * f.binade - 1) * 2 ^ s + 2 ^ s
      = (2 * f.binade - 1 + 1) * 2 ^ s := (Nat.succ_mul _ _).symm
    _ = f.binade * 2 ^ (s + 1) := by
        rw [hlast, Nat.mul_comm 2, Nat.mul_assoc, ← Nat.pow_succ']

/-- What is rounded to infinity is beyond the last middle. -/
theorem le_of_nearest_eq_infinity {num den : Nat} (hden : 0 < den) (hpos : 0 < f.infinity)
    (h : f.nearest num den = f.infinity) :
    f.value (f.infinity - 1) + f.value f.infinity ≤ 2 * (num / den : ℚ) := by
  obtain ⟨code, hnearest, -, hlower⟩ := f.exists_nearest num hden
  have hlast : f.infinity - 1 + 1 = f.infinity := Nat.sub_add_cancel hpos
  have hmiddle := (le_two_mul_iff hden (f.infinity - 1)).mpr (hlower (f.infinity - 1) (by omega))
  rwa [hlast] at hmiddle

end Format

/-! ### Arithmetic -/

variable {f : Format}

/-- The exact **magnitude** of a finite number. -/
def magnitude (x : Binary f) : ℚ := f.value x.code

theorem magnitude_nonneg (x : Binary f) : 0 ≤ x.magnitude := f.value_nonneg x.code

theorem magnitude_pos {x : Binary f} (h : x.code ≠ 0) : 0 < x.magnitude := by
  rw [magnitude, Format.value]
  have hunits : 0 < f.units x.code := f.units_pos_iff.mpr (Nat.pos_of_ne_zero h)
  positivity

theorem magnitude_of_code_eq_zero {x : Binary f} (h : x.code = 0) : x.magnitude = 0 := by
  rw [magnitude, h, Format.value_zero]

/-- The magnitude as a fraction of two natural numbers. -/
theorem units_div_eq_magnitude (x : Binary f) :
    (x.units / (Nat.pow 2 f.depth : Nat) : ℚ) = x.magnitude := (f.value_eq_div x.code).symm

variable {x y : Binary f}

theorem pow_two_mul_depth_pos (f : Format) : 0 < Nat.pow 2 (2 * f.depth) := Nat.two_pow_pos _

theorem pow_two_mul_depth (f : Format) :
    Nat.pow 2 (2 * f.depth) = Nat.pow 2 f.depth * Nat.pow 2 f.depth := by
  rw [Nat.pow_eq, Nat.pow_eq, ← Nat.pow_add, Nat.two_mul]

/-- The fraction that a product is rounded from is the product of the magnitudes. -/
theorem mul_ratio (x y : Binary f) :
    ((x.units * y.units : Nat) / (Nat.pow 2 (2 * f.depth) : Nat) : ℚ)
      = x.magnitude * y.magnitude := by
  rw [← units_div_eq_magnitude, ← units_div_eq_magnitude, div_mul_div_comm, Nat.cast_mul,
    pow_two_mul_depth, Nat.cast_mul]

/-- With a factor of at most one, a product is not rounded beyond the other factor. -/
theorem code_mul_le (h : x.units ≤ Nat.pow 2 f.depth) : (x.mul y).code ≤ y.code := by
  refine f.nearest_le (pow_two_mul_depth_pos f) ?_
  rw [pow_two_mul_depth, ← Nat.mul_assoc, Nat.mul_comm (f.units y.code)]
  exact Nat.mul_le_mul_right _ (Nat.mul_le_mul_right _ h)

theorem div_ratio (x y : Binary f) : (x.units / y.units : ℚ) = x.magnitude / y.magnitude := by
  have hdepth : ((Nat.pow 2 f.depth : Nat) : ℚ) ≠ 0 := Nat.cast_ne_zero.mpr f.pow_depth_pos.ne'
  rw [← units_div_eq_magnitude, ← units_div_eq_magnitude, div_div_div_cancel_right₀ hdepth]

/-- A product is rounded once. -/
theorem apart_mul (h : (x.mul y).isFinite = true) :
    f.Apart 1 f.grain (x.mul y).magnitude (x.magnitude * y.magnitude) := by
  rw [← mul_ratio]
  exact f.apart_nearest (pow_two_mul_depth_pos f) (of_decide_eq_true h)

theorem apart_div (hy : y.code ≠ 0) (h : (x.div y).isFinite = true) :
    f.Apart 1 f.grain (x.div y).magnitude (x.magnitude / y.magnitude) := by
  rw [← div_ratio]
  exact f.apart_nearest (f.units_pos_iff.mpr (Nat.pos_of_ne_zero hy)) (of_decide_eq_true h)

/-- A natural number is rounded once. -/
theorem apart_ofNat {n : Nat} (h : (ofNat f n).isFinite = true) :
    f.Apart 1 f.grain (ofNat f n).magnitude n := by
  have happart : f.Apart 1 f.grain (ofNat f n).magnitude (n / (1 : Nat)) :=
    f.apart_nearest Nat.one_pos (of_decide_eq_true h)
  rwa [Nat.cast_one, div_one] at happart

/-! ### Doubles -/

namespace Double

theorem step_eq : Format.double.step = 1 + 1 / 2 ^ 53 := rfl

theorem grain_le {k : Nat} (hk : k ≤ 1075) : Format.double.grain ≤ 1 / 2 ^ k :=
  one_div_pow_le_one_div_pow_of_le one_le_two hk

/-- Few roundings do little. -/
theorem step_pow_le {k : Nat} (hk : k ≤ 20) : Format.double.step ^ k ≤ 1 + 1 / 2 ^ 48 := by
  refine le_trans (pow_le_pow_right₀ Format.double.one_le_step hk) ?_
  rw [step_eq]
  norm_num

theorem depth_eq : Format.double.depth = 1074 := by decide

theorem binade_eq : Format.double.binade = 2 ^ 52 := by decide

theorem exponents_eq : 2 ^ Format.double.exponentBits = 2048 := by decide

/-- Infinity as a value: the power of two that would come next. -/
theorem value_infinity : Format.double.value Format.double.infinity = 2 ^ 1024 := by
  obtain ⟨hunits, -⟩ := Format.double.units_infinity (by decide)
  rw [binade_eq, exponents_eq] at hunits
  rw [Format.value, hunits, depth_eq, div_eq_iff (by positivity), Nat.cast_mul, Nat.cast_pow,
    Nat.cast_pow, Nat.cast_ofNat, ← pow_add, ← pow_add]

/-- The greatest double is one gap below. -/
theorem value_greatest :
    Format.double.value (Format.double.infinity - 1) + 2 ^ 971 = 2 ^ 1024 := by
  obtain ⟨-, hunits⟩ := Format.double.units_infinity (by decide)
  rw [exponents_eq] at hunits
  have hcast := congrArg (Nat.cast (R := ℚ)) hunits
  rw [Nat.cast_add, Nat.cast_pow, Nat.cast_ofNat] at hcast
  have hpow : (2 : ℚ) ^ (2048 - 3) = 2 ^ 971 * 2 ^ 1074 := by rw [← pow_add]
  have hdepth : (2 : ℚ) ^ 1074 ≠ 0 := by positivity
  rw [← value_infinity, Format.value, Format.value, depth_eq, ← hcast, hpow, add_div,
    mul_div_cancel_right₀ _ hdepth]

variable {x : Double}

/-- Finite doubles are below 2¹⁰²⁴. -/
theorem magnitude_lt (h : x.isFinite = true) : x.magnitude < 2 ^ 1024 := by
  rw [← value_infinity]
  exact Format.double.value_strictMono (of_decide_eq_true h)

/-- **Out of range.** What is rounded to no finite number is out of range but for one rounding. -/
theorem le_step_mul {negative : Bool} {num den : Nat} (hden : 0 < den)
    (h : (ofRatio .double negative num den).isFinite ≠ true) :
    2 ^ 1024 ≤ Format.double.step * (num / den : ℚ) := by
  have hnot : ¬Format.double.nearest num den < Format.double.infinity := fun hlt =>
    h (decide_eq_true hlt)
  have hle := Format.double.nearest_le_infinity num den
  have hmiddle := Format.double.le_of_nearest_eq_infinity hden (by decide)
    (Nat.le_antisymm hle (Nat.not_lt.mp hnot))
  have hgreatest := value_greatest
  -- All is measured by the last gap.
  have hpow : (2 : ℚ) ^ 1024 = 2 ^ 53 * 2 ^ 971 := by rw [← pow_add]
  rw [value_infinity] at hmiddle
  rw [hpow] at hmiddle hgreatest ⊢
  clear hpow
  have hlast : (0 : ℚ) < 2 ^ 971 := by positivity
  rw [step_eq]
  generalize (2 : ℚ) ^ 971 = last at *
  linarith

/-- A product that is not finite is out of range but for one rounding. -/
theorem le_step_mul_of_mul {x y : Double} (h : (x.mul y).isFinite ≠ true) :
    2 ^ 1024 ≤ Format.double.step * (x.magnitude * y.magnitude) := by
  rw [← mul_ratio]
  exact le_step_mul (pow_two_mul_depth_pos _) h

/-- Numbers up to 10³⁰⁸ leave room for a rounding. -/
theorem step_mul_lt : Format.double.step * 10 ^ 308 < 2 ^ 1024 := by
  -- Without fractions, so that it can be computed.
  have hnat : (2 ^ 53 + 1) * 10 ^ 308 < 2 ^ 1024 * 2 ^ 53 := by decide +kernel
  have hstep : Format.double.step = (2 ^ 53 + 1) / 2 ^ 53 := by
    rw [step_eq]
    norm_num
  rw [hstep, div_mul_eq_mul_div, div_lt_iff₀ (by positivity)]
  exact_mod_cast hnat

/-- Fractions up to 10³⁰⁸ are rounded to finite doubles. -/
theorem isFinite_ofRatio {negative : Bool} {num den : Nat} (hden : 0 < den)
    (h : (num / den : ℚ) ≤ 10 ^ 308) : (ofRatio .double negative num den).isFinite = true := by
  by_contra hnot
  have hle := le_step_mul hden hnot
  have hmul := mul_le_mul_of_nonneg_left h Format.double.step_pos.le
  exact absurd step_mul_lt (not_lt.mpr (le_trans hle hmul))

theorem isFinite_ofNat {n : Nat} (h : (n : ℚ) ≤ 10 ^ 308) :
    (ofNat .double n).isFinite = true :=
  isFinite_ofRatio Nat.one_pos (by rwa [Nat.cast_one, div_one])

/-- A number that is not zero is rounded by two factors at most, and by no rest. -/
theorem apart_ofNat_of_pos {n : Nat} (hn : 0 < n) (h : (ofNat .double n).isFinite = true) :
    Format.double.Apart 2 0 (ofNat .double n).magnitude n := by
  have hone : (1 : ℚ) ≤ n := Nat.one_le_cast.mpr hn
  have hgrain := grain_le (k := 60) (by decide)
  obtain ⟨hle, hge⟩ := apart_ofNat h
  generalize (ofNat .double n).magnitude = x at *
  rw [step_eq] at hle hge
  constructor <;> rw [step_eq] <;> linarith

end Double

end SpeechService.Binary
