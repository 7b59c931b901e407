import Mathlib.Algebra.Order.Field.Power
import SpeechService.Proofs.Binary.Error
import SpeechService.Proofs.Json.Values

/-!
# Scaling by powers of ten

A significand of 64 bits is scaled by a power of ten in one rounding, or in several where the power
is no double. However many there are, the result is what it should be but for these roundings
(`Json.Numeral.rounds_scale`), and there is none only for a value beyond the range. The same holds
where the power is spelled in digits, even in so many that they are not followed to the end
(`Json.Numeral.rounds_magnitude?`).

What is above zero but below the least magnitude is kept apart in a rest that does not add up: a
further division leaves less of it than one rounding adds.
-/

namespace SpeechService.Json

open SpeechService.Binary (Format)

namespace Numeral

/-! ### Powers of ten -/

theorem code_ofNat_zero : (Binary.ofNat .double 0).code = 0 :=
  Nat.le_zero.mp (Format.double.nearest_le Nat.one_pos (by simp))

/-- What is apart by factors only from a number above zero is not zero. -/
theorem code_ne_zero_of_apart {x : Double} {k : Nat} {y : ℚ}
    (h : Format.double.Apart k 0 x.magnitude y) (hy : 0 < y) : x.code ≠ 0 := by
  intro hzero
  have hge := h.ge
  rw [Binary.magnitude_of_code_eq_zero hzero, mul_zero, add_zero] at hge
  exact absurd hy (not_lt.mpr hge)

/-- All powers of ten that are used are finite. -/
theorem isFinite_tenTo {m : Nat} (hm : m ≤ greatestPower) : (tenTo m).isFinite = true := by
  refine Binary.Double.isFinite_ofNat ?_
  rw [Nat.pow_eq, Nat.cast_pow, Nat.cast_ofNat]
  exact pow_le_pow_right₀ (by norm_num) hm

/-- A power of ten is rounded by two factors at most. -/
theorem apart_tenTo {m : Nat} (hm : m ≤ greatestPower) :
    Format.double.Apart 2 0 (tenTo m).magnitude (10 ^ m) := by
  have happart := Binary.Double.apart_ofNat_of_pos (Nat.pow_pos (by decide)) (isFinite_tenTo hm)
  rwa [Nat.cast_pow, Nat.cast_ofNat] at happart

theorem code_tenTo_ne_zero {m : Nat} (hm : m ≤ greatestPower) : (tenTo m).code ≠ 0 :=
  code_ne_zero_of_apart (apart_tenTo hm) (by positivity)

/-! ### Scaling down -/

/-- The number is finite and not negative, and `k` roundings apart from a value. -/
structure Reads (x : Double) (k : Nat) (rest y : ℚ) : Prop where
  negative : x.negative = false
  isFinite : x.isFinite = true
  apart : Format.double.Apart k rest x.magnitude y

theorem Reads.mono {x : Double} {k k' : Nat} {r r' y : ℚ} (h : Reads x k r y) (hy : 0 ≤ y)
    (hk : k ≤ k') (hr : r ≤ r') : Reads x k' r' y :=
  ⟨h.negative, h.isFinite, h.apart.mono x.magnitude_nonneg hy hk hr⟩

variable {x : Double} {k m : Nat} {y : ℚ}

/-- Where number and value are below the rest, they are not told apart. -/
theorem Reads.of_le {r : ℚ} (hsign : x.negative = false) (hfinite : x.isFinite = true)
    (hx : x.magnitude ≤ r) (hy : 0 ≤ y) (hyr : y ≤ r) : Reads x k r y := by
  have hstep := pow_nonneg Format.double.step_pos.le k
  refine ⟨hsign, hfinite, le_trans hx ?_, le_trans hyr ?_⟩
  · exact le_add_of_nonneg_left (mul_nonneg hstep hy)
  · exact le_add_of_nonneg_left (mul_nonneg hstep x.magnitude_nonneg)

/-- The exact quotient by a rounded power of ten. -/
theorem Reads.quotient (h : Reads x k (2 * Format.double.grain) y) (hy : 0 ≤ y) (hpos : m ≠ 0)
    (hm : m ≤ greatestPower) :
    Format.double.Apart (2 + k) (Format.double.grain / 2) (x.magnitude / (tenTo m).magnitude)
      (y / 10 ^ m) := by
  have hgrain := Format.double.grain_pos
  have hten : (10 : ℚ) ≤ 10 ^ m := le_self_pow₀ (by norm_num) hpos
  have hdivisor := (apart_tenTo hm).const_div (Binary.magnitude_pos (code_tenTo_ne_zero hm))
    (by positivity) x.magnitude_nonneg
  have hdividend := h.apart.div_const (z := 10 ^ m) (by positivity)
  have happart := hdivisor.trans hdividend le_rfl (by positivity)
  rw [mul_zero, add_zero] at happart
  refine happart.mono (div_nonneg x.magnitude_nonneg (Binary.magnitude_nonneg _)) (by positivity)
    le_rfl ?_
  have hstep := Binary.Double.step_pow_le (k := 2) (by decide)
  have hshare : 2 * Format.double.grain / 10 ^ m ≤ Format.double.grain / 5 := by
    rw [div_le_div_iff₀ (by positivity) (by positivity)]
    linarith [mul_le_mul_of_nonneg_left hten hgrain.le]
  calc Format.double.step ^ 2 * (2 * Format.double.grain / 10 ^ m)
      ≤ (1 + 1 / 2 ^ 48) * (Format.double.grain / 5) := by gcongr
    _ ≤ Format.double.grain / 2 := by linarith

theorem Reads.isFinite_div (h : Reads x k (2 * Format.double.grain) y) (hy : 0 ≤ y)
    (hlarge : y ≤ 2 ^ 64) (hk : 2 + k ≤ 20) (hpos : m ≠ 0) (hm : m ≤ greatestPower) :
    (x.div (tenTo m)).isFinite = true := by
  have hunits : 0 < (tenTo m).units :=
    Format.double.units_pos_iff.mpr (Nat.pos_of_ne_zero (code_tenTo_ne_zero hm))
  have hstep := Binary.Double.step_pow_le hk
  have hgrain := Binary.Double.grain_le (k := 1) (by decide)
  have hvalue : y / 10 ^ m ≤ 2 ^ 64 :=
    le_trans (div_le_self hy (one_le_pow₀ (by norm_num))) hlarge
  refine Binary.Double.isFinite_ofRatio hunits ?_
  rw [Binary.div_ratio]
  calc x.magnitude / (tenTo m).magnitude
      ≤ Format.double.step ^ (2 + k) * (y / 10 ^ m) + Format.double.grain / 2 :=
        (h.quotient hy hpos hm).le
    _ ≤ (1 + 1 / 2 ^ 48) * 2 ^ 64 + 1 / 2 ^ 1 / 2 := by gcongr
    _ ≤ 10 ^ 20 := by norm_num
    _ ≤ 10 ^ 308 := pow_le_pow_right₀ (by norm_num) (by decide)

/-- Dividing by a power of ten. -/
theorem Reads.div (h : Reads x k (2 * Format.double.grain) y) (hy : 0 ≤ y) (hlarge : y ≤ 2 ^ 64)
    (hk : k + 3 ≤ 20) (hpos : m ≠ 0) (hm : m ≤ greatestPower) :
    Reads (x.div (tenTo m)) (k + 3) (2 * Format.double.grain) (y / 10 ^ m) := by
  have hgrain := Format.double.grain_pos
  have hfinite := h.isFinite_div hy hlarge (by omega) hpos hm
  have happart := (Binary.apart_div (code_tenTo_ne_zero hm) hfinite).trans (h.quotient hy hpos hm)
    hgrain.le (by positivity)
  refine ⟨by rw [Binary.div, Binary.ofRatio, h.negative]; rfl, hfinite, ?_⟩
  refine happart.mono (Binary.magnitude_nonneg _) (by positivity) (by omega) ?_
  have hstep := Binary.Double.step_pow_le (k := 1) (by decide)
  have hsteps := Binary.Double.step_pow_le (k := 2 + k) (by omega)
  calc Format.double.step ^ 1 * (Format.double.grain / 2)
        + Format.double.step ^ (2 + k) * Format.double.grain
      ≤ (1 + 1 / 2 ^ 48) * (Format.double.grain / 2)
        + (1 + 1 / 2 ^ 48) * Format.double.grain := by gcongr
    _ ≤ 2 * Format.double.grain := by linarith

theorem mul_zpow_le {e : Int} (hy : 0 ≤ y) (he : e < 0) : y * 10 ^ e ≤ y :=
  mul_le_of_le_one_right hy (zpow_le_one_of_nonpos₀ (by norm_num) he.le)

/-- To divide by a power of ten is to multiply with the negative one. -/
theorem div_pow_natAbs {e : Int} (he : e < 0) (y : ℚ) : y / 10 ^ e.natAbs = y * 10 ^ e := by
  rw [div_eq_mul_inv, ← zpow_natCast, ← zpow_neg]
  congr 2
  omega

/-- What is divided first can be made up for in the exponent. -/
theorem div_pow_mul_zpow (e : Int) (m : Nat) (y : ℚ) :
    y / 10 ^ m * 10 ^ (e + m) = y * 10 ^ e := by
  have hpower : (10 : ℚ) ^ m ≠ 0 := by positivity
  rw [zpow_add₀ (by norm_num), zpow_natCast, mul_comm (10 ^ e), ← mul_assoc,
    div_mul_cancel₀ _ hpower]

/-- **Scaling down.** No matter in how many steps a number is divided, it is what it should be but
for the roundings of these steps. -/
theorem exists_scaleFrom {steps : Nat} {e : Int} (he : e < 0)
    (h : Reads x k (2 * Format.double.grain) y) (hy : 0 ≤ y) (hlarge : y ≤ 2 ^ 64)
    (hsteps : y ≤ Format.double.grain * 10 ^ (greatestPower * steps)) (hk : k + 3 * steps ≤ 20) :
    ∃ z, scaleFrom x e steps = some z ∧
      Reads z (k + 3 * steps) (4 * Format.double.grain) (y * 10 ^ e) := by
  have hgrain := Format.double.grain_pos
  induction steps generalizing x k e y with
  | zero =>
    -- So many steps were made that the value has vanished.
    rw [Nat.mul_zero, pow_zero, mul_one] at hsteps
    have hstep := Binary.Double.step_pow_le (k := k) (by omega)
    have hx : x.magnitude ≤ 4 * Format.double.grain := by
      calc x.magnitude ≤ Format.double.step ^ k * y + 2 * Format.double.grain := h.apart.le
        _ ≤ (1 + 1 / 2 ^ 48) * Format.double.grain + 2 * Format.double.grain := by gcongr
        _ ≤ 4 * Format.double.grain := by linarith
    have hscaled := mul_zpow_le hy he
    exact ⟨x, rfl, .of_le h.negative h.isFinite hx (by positivity) (by linarith)⟩
  | succ steps ih =>
    have hpos : 0 ≤ y * 10 ^ e := by positivity
    rw [scaleFrom]
    by_cases hnear : e.natAbs ≤ greatestPower
    · have hdiv := h.div hy hlarge (by omega) (by omega) hnear
      rw [div_pow_natAbs he] at hdiv
      rw [if_pos hnear, if_pos he]
      exact ⟨_, rfl, hdiv.mono hpos (by omega) (by linarith)⟩
    · rw [if_neg hnear]
      by_cases hzero : x.code = 0
      · have hmagnitude := Binary.magnitude_of_code_eq_zero hzero
        have hge := h.apart.ge
        have hscaled := mul_zpow_le hy he
        rw [hmagnitude, mul_zero, zero_add] at hge
        rw [if_pos hzero]
        exact ⟨x, rfl, .of_le h.negative h.isFinite (by linarith) hpos (by linarith)⟩
      · have hdiv := h.div hy hlarge (by omega) (by decide) (Nat.le_refl greatestPower)
        have hnext : y / 10 ^ greatestPower ≤ y := div_le_self hy (one_le_pow₀ (by norm_num))
        have hrest : y / 10 ^ greatestPower
            ≤ Format.double.grain * 10 ^ (greatestPower * steps) := by
          rwa [div_le_iff₀ (by positivity), mul_assoc, ← pow_add, ← Nat.mul_succ]
        have hfar : e + greatestPower < 0 := by omega
        obtain ⟨z, hz, hreads⟩ := ih hfar hdiv (by positivity) (le_trans hnext hlarge) hrest
          (by omega)
        rw [div_pow_mul_zpow] at hreads
        rw [if_neg hzero, if_neg (Int.not_le.mpr he)]
        exact ⟨z, hz, hreads.mono hpos (by omega) le_rfl⟩

/-! ### Scaling -/

/-- What a value is **rounded** to, if anything. Only a value beyond the range is rounded to
nothing. -/
structure Rounds (o : Option Double) (y : ℚ) : Prop where
  reads : ∀ x, o = some x → Reads x 14 (4 * Format.double.grain) y
  beyond : o = none → 2 ^ 1024 ≤ Format.double.step ^ 5 * y

/-- What is read by a few roundings is rounded as it should be. -/
theorem Rounds.of_reads {y : ℚ} {x : Double} (h : Reads x 14 (4 * Format.double.grain) y) :
    Rounds (some x) y := by
  refine ⟨fun z hz => Option.some.inj hz ▸ h, fun hnone => ?_⟩
  cases hnone

theorem Rounds.of_beyond {y : ℚ} (h : 2 ^ 1024 ≤ Format.double.step ^ 5 * y) : Rounds none y := by
  refine ⟨fun z hz => ?_, fun _ => h⟩
  cases hz

/-- A natural number of 64 bits is read by two factors. -/
theorem reads_ofNat {n : Nat} (hn : n ≤ Text.max64) : Reads (.ofNat .double n) 2 0 n := by
  have hfinite : (Binary.ofNat .double n).isFinite = true := by
    have hcast : (n : ℚ) ≤ 10 ^ 20 := by exact_mod_cast le_trans hn (by decide)
    have hpow : (10 : ℚ) ^ 20 ≤ 10 ^ 308 := pow_le_pow_right₀ (by norm_num) (by decide)
    exact Binary.Double.isFinite_ofNat (le_trans hcast hpow)
  refine ⟨rfl, hfinite, ?_⟩
  rcases Nat.eq_zero_or_pos n with rfl | hpos
  · rw [Binary.magnitude_of_code_eq_zero code_ofNat_zero, Nat.cast_zero]
    exact ⟨by simp, by simp⟩
  · exact Binary.Double.apart_ofNat_of_pos hpos hfinite

/-- What is less than half the least double may be read as zero. -/
theorem rounds_zero (hy : 0 ≤ y) (hgrain : y ≤ Format.double.grain) :
    Rounds (some (.ofNat .double 0)) y := by
  have hstart := reads_ofNat (Nat.zero_le Text.max64)
  have hpos := Format.double.grain_pos
  have hmagnitude := Binary.magnitude_of_code_eq_zero code_ofNat_zero
  exact .of_reads (.of_le rfl hstart.isFinite (by linarith) hy (by linarith))

/-- Four full steps make every significand vanish. -/
theorem le_grain_mul {n : Nat} (hn : n ≤ Text.max64) :
    (n : ℚ) ≤ Format.double.grain * 10 ^ (greatestPower * 4) := by
  have hnat : Text.max64 * 2 ^ (Format.double.depth + 1) ≤ 10 ^ (greatestPower * 4) := by
    decide +kernel
  have hle := le_trans (Nat.mul_le_mul_right (2 ^ (Format.double.depth + 1)) hn) hnat
  rw [Format.grain, div_mul_eq_mul_div, one_mul, le_div_iff₀ (by positivity)]
  exact_mod_cast hle

/-- A significand behind so many places has vanished. -/
theorem mul_zpow_le_grain {n : Nat} {e : Int} (hn : n ≤ Text.max64)
    (he : e ≤ -((greatestPower * 4 : Nat) : Int)) :
    (n : ℚ) * 10 ^ e ≤ Format.double.grain := by
  calc (n : ℚ) * 10 ^ e
      ≤ n * 10 ^ (-((greatestPower * 4 : Nat) : Int)) :=
        mul_le_mul_of_nonneg_left (zpow_le_zpow_right₀ (by norm_num) he) n.cast_nonneg
    _ = n / 10 ^ (greatestPower * 4) := by rw [zpow_neg, zpow_natCast, div_eq_mul_inv]
    _ ≤ Format.double.grain := (div_le_iff₀ (by positivity)).mpr (le_grain_mul hn)

/-- Scaling down never overflows, but may come to zero. -/
theorem rounds_scale_of_neg {n : Nat} {e : Int} (hn : n ≤ Text.max64) (he : e < 0) :
    Rounds (scale n e) (n * 10 ^ e) := by
  have hlarge : (n : ℚ) ≤ 2 ^ 64 := by exact_mod_cast le_trans hn (by decide)
  have hstart := (reads_ofNat hn).mono n.cast_nonneg le_rfl
    (mul_nonneg zero_le_two Format.double.grain_pos.le)
  obtain ⟨x, hx, hreads⟩ :=
    exists_scaleFrom he hstart n.cast_nonneg hlarge (le_grain_mul hn) (by decide)
  rw [scale, hx]
  exact .of_reads hreads

/-- Scaling up by one power of ten: a product that is not finite was out of range. -/
theorem rounds_mul {m : Nat} (h : Reads x 2 0 y) (hy : 0 ≤ y) (hm : m ≤ greatestPower) :
    Rounds ((some (x.mul (tenTo m))).filter Binary.isFinite) (y * 10 ^ m) := by
  have hgrain := Format.double.grain_pos
  have hexact := h.apart.mul (apart_tenTo hm) x.magnitude_nonneg hy (Binary.magnitude_nonneg _)
    (by positivity)
  rw [Option.filter_some]
  by_cases hfinite : (x.mul (tenTo m)).isFinite = true
  · rw [if_pos hfinite]
    have happart := (Binary.apart_mul hfinite).trans hexact hgrain.le le_rfl
    have hstep := Binary.Double.step_pow_le (k := 4) (by decide)
    refine .of_reads ⟨by rw [Binary.mul, Binary.ofRatio, h.negative]; rfl, hfinite, ?_⟩
    refine happart.mono (Binary.magnitude_nonneg _) (by positivity) (by decide) ?_
    calc Format.double.step ^ 1 * 0 + Format.double.step ^ (2 + 2) * Format.double.grain
        ≤ 0 + (1 + 1 / 2 ^ 48) * Format.double.grain := by
          rw [mul_zero]
          gcongr
      _ ≤ 4 * Format.double.grain := by linarith
  · rw [if_neg hfinite]
    refine .of_beyond (le_trans (Binary.Double.le_step_mul_of_mul hfinite) ?_)
    have hle := hexact.le
    rw [add_zero] at hle
    calc Format.double.step * (x.magnitude * (tenTo m).magnitude)
        ≤ Format.double.step * (Format.double.step ^ (2 + 2) * (y * 10 ^ m)) :=
          mul_le_mul_of_nonneg_left hle Format.double.step_pos.le
      _ = Format.double.step ^ 5 * (y * 10 ^ m) := by ring

/-- A number at a place beyond the greatest power is out of range. -/
theorem rounds_none {n : Nat} {e : Int} (hn : 0 < n) (he : greatestPower < e) :
    Rounds none (n * 10 ^ e) := by
  have hnat : 2 ^ 1024 ≤ 10 ^ 309 := by decide +kernel
  have hvalue := calc (2 : ℚ) ^ 1024
      ≤ 10 ^ 309 := by exact_mod_cast hnat
    _ = 10 ^ (309 : Int) := (zpow_natCast _ _).symm
    _ ≤ 10 ^ e := zpow_le_zpow_right₀ (by norm_num) he
    _ ≤ n * 10 ^ e := le_mul_of_one_le_left (by positivity) (Nat.one_le_cast.mpr hn)
  have hpos : (0 : ℚ) ≤ n * 10 ^ e := by positivity
  exact .of_beyond (le_trans hvalue
    (le_mul_of_one_le_left hpos (one_le_pow₀ Format.double.one_le_step)))

/-- Scaling up: either by one power of ten, or out of range for any number but zero. -/
theorem rounds_scale_of_nonneg {n : Nat} {e : Int} (hn : n ≤ Text.max64) (he : 0 ≤ e) :
    Rounds (scale n e) (n * 10 ^ e) := by
  have hstart := reads_ofNat hn
  rw [scale, scaleFrom]
  by_cases hnear : e.natAbs ≤ greatestPower
  · have hpower : (10 : ℚ) ^ e = 10 ^ e.natAbs := by
      rw [← zpow_natCast]
      congr 1
      omega
    rw [if_pos hnear, if_neg (Int.not_lt.mpr he), hpower]
    exact rounds_mul hstart n.cast_nonneg hnear
  · have hfar : greatestPower < e := by omega
    rw [if_neg hnear]
    -- Only zero is not out of range now.
    by_cases hzero : (Binary.ofNat .double n).code = 0
    · have hn0 : n = 0 := by
        by_contra hne
        exact code_ne_zero_of_apart hstart.apart (Nat.cast_pos.mpr (Nat.pos_of_ne_zero hne)) hzero
      subst hn0
      rw [if_pos hzero, Nat.cast_zero, zero_mul]
      exact rounds_zero le_rfl Format.double.grain_pos.le
    · have hpos : 0 < n := by
        refine Nat.pos_of_ne_zero ?_
        rintro rfl
        exact hzero code_ofNat_zero
      rw [if_neg hzero, if_pos he]
      exact rounds_none hpos hfar

/-- **Scaling.** -/
theorem rounds_scale {n : Nat} (hn : n ≤ Text.max64) (e : Int) :
    Rounds (scale n e) (n * 10 ^ e) :=
  (Int.lt_or_le e 0).elim (rounds_scale_of_neg hn) (rounds_scale_of_nonneg hn)

/-! ### Exponents -/

/-- The power of ten that an exponent stands for. -/
def power : Option (Bool × List Char) → Int
  | none => 0
  | some (down, digits) =>
    if down then -(Nat.ofDigitChars 10 digits 0 : Int) else Nat.ofDigitChars 10 digits 0

/-- Numbers with more digits than this before or behind the point are left aside. -/
def reach : Nat := 2000000000

/-- **Exponents.** One that is not followed to its end is so large that all is decided by its
sign. -/
theorem rounds_magnitude? {n : Nat} {places : Int} {exponent : Option (Bool × List Char)}
    (hn : n ≤ Text.max64) (hplaces : places.natAbs ≤ reach)
    (hexponent : ∀ e ∈ exponent, e.2 ≠ [] ∧ ∀ c ∈ e.2, c.isDigit = true) :
    Rounds (magnitude? n places exponent) (n * 10 ^ (places + power exponent)) := by
  rcases exponent with - | ⟨down, digits⟩
  · rw [power, Int.add_zero]
    exact rounds_scale hn places
  obtain ⟨hne, hdigits⟩ := hexponent _ rfl
  rw [magnitude?, power]
  cases hread : Text.digits? greatestExponent digits with
  | some e =>
    obtain ⟨-, -, hvalue, -⟩ := Text.digits?_eq_some_iff.mp hread
    rw [hvalue]
    cases down <;> exact rounds_scale hn _
  | none =>
    have hlarge : greatestExponent < Nat.ofDigitChars 10 digits 0 := by
      by_contra hle
      have hsome := Text.digits?_eq_some_iff.mpr ⟨hne, hdigits, rfl, Nat.not_lt.mp hle⟩
      rw [hread] at hsome
      cases hsome
    generalize Nat.ofDigitChars 10 digits 0 = e at hlarge
    -- No number of digits makes up for such an exponent.
    have hreach : (reach + 2000 : Int) < e := by exact_mod_cast lt_trans (by decide) hlarge
    rcases Nat.eq_zero_or_pos n with rfl | hpos
    · rw [if_neg (by simp), Nat.cast_zero, zero_mul]
      exact rounds_zero le_rfl Format.double.grain_pos.le
    cases down with
    | false =>
      have hfar : greatestPower < places + e := by
        rw [greatestPower]
        omega
      rw [if_pos ⟨hpos.ne', by decide⟩, if_neg (by decide)]
      exact rounds_none hpos hfar
    | true =>
      have hfar : places + -e ≤ -((greatestPower * 4 : Nat) : Int) := by
        rw [greatestPower]
        omega
      rw [if_neg (by simp), if_pos rfl]
      exact rounds_zero (by positivity) (mul_zpow_le_grain hn hfar)

end Numeral

end SpeechService.Json
