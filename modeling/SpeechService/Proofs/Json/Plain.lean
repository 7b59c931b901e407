import SpeechService.Proofs.Json.Numbers

/-!
# Plain numbers

A number is plain if its digits fit into a double and its power of ten is small
(`Json.Numeral.IsPlain`). Then neither its digits nor its power are rounded, so that scaling them
rounds once, and the number comes out as the double that is nearest to it
(`Json.Numeral.IsPlain.isDouble_nearest`). So does every plain number in a text
(`Json.Begins.isDouble_nearest`).
-/

namespace SpeechService.Json

open SpeechService.Binary (Format)

namespace Numeral

/-- The double that is **nearest** to a number. It is infinite if the number is out of range. -/
def nearest (n : Numeral) : Double := n.decimal.toDouble n.negative

/-- The number is **plain**: its digits and its power of ten are doubles. -/
structure IsPlain (n : Numeral) : Prop where
  digits : n.decimal.digits < 2 ^ 53
  exponent : n.decimal.exponent.natAbs ≤ 22

/-! ### Exact numbers -/

/-- A number of few binary digits, doubled any number of times, is a double itself. -/
theorem magnitude_ofNat_mul_pow {k j : Nat} (hk : k < 2 ^ 53)
    (h : ((k * 2 ^ j : Nat) : ℚ) < 2 ^ 1024) :
    (Binary.ofNat .double (k * 2 ^ j)).magnitude = (k * 2 ^ j : Nat) := by
  obtain ⟨code, hcode⟩ := Format.double.exists_value_eq hk (by decide) j
  have hvalue : Format.double.value code = ((k * 2 ^ j : Nat) / (1 : Nat) : ℚ) := by
    rw [hcode]
    push_cast
    rw [div_one]
  have hle : code ≤ Format.double.infinity := by
    refine (Format.double.value_strictMono.lt_iff_lt.mp ?_).le
    rw [Binary.Double.value_infinity, hvalue, Nat.cast_one, div_one]
    exact h
  have hmagnitude : (Binary.ofNat .double (k * 2 ^ j)).magnitude
      = Format.double.value (Format.double.nearest (k * 2 ^ j) 1) := rfl
  rw [hmagnitude, Format.double.nearest_of_value_eq Nat.one_pos hle hvalue, hvalue, Nat.cast_one,
    div_one]

/-- Few digits are a double. -/
theorem magnitude_ofNat {k : Nat} (hk : k < 2 ^ 53) : (Binary.ofNat .double k).magnitude = k := by
  have hlarge : ((k * 2 ^ 0 : Nat) : ℚ) < 2 ^ 1024 := by
    rw [pow_zero, mul_one]
    exact_mod_cast hk.trans (Nat.pow_lt_pow_right (by decide) (by decide))
  have hexact := magnitude_ofNat_mul_pow hk hlarge
  rwa [pow_zero, mul_one] at hexact

/-- A small power of ten is a double: a power of five has few digits. -/
theorem magnitude_tenTo {m : Nat} (hm : m ≤ 22) : (tenTo m).magnitude = 10 ^ m := by
  have hten : Nat.pow 10 m = 5 ^ m * 2 ^ m := Nat.mul_pow 5 2 m
  have hfive : 5 ^ m < 2 ^ 53 := lt_of_le_of_lt (Nat.pow_le_pow_right (by decide) hm) (by decide)
  have hlarge : ((5 ^ m * 2 ^ m : Nat) : ℚ) < 2 ^ 1024 := by
    rw [← hten]
    have hsmall : 10 ^ m < 2 ^ 1024 :=
      lt_of_le_of_lt (Nat.pow_le_pow_right (by decide) hm) (by decide +kernel)
    exact_mod_cast hsmall
  rw [tenTo, hten, magnitude_ofNat_mul_pow hfive hlarge, ← hten, Nat.pow_eq]
  push_cast
  rfl

/-! ### Decimals of few figures -/

/-- A decimal of few figures is never too far from the point to be rounded. -/
theorem code_eq_nearest_of_plain {d : Decimal} (hdigits : d.digits < 2 ^ 53)
    (hexponent : d.exponent.natAbs ≤ 22) :
    d.code = Format.double.nearest (d.digits * Nat.pow 10 d.exponent.toNat)
      (Nat.pow 10 (-d.exponent).toNat) := by
  by_cases hzero : d.digits = 0
  · have hcode : d.code = 0 := if_pos (.inl hzero)
    have hnearest : Format.double.nearest (d.digits * Nat.pow 10 d.exponent.toNat)
        (Nat.pow 10 (-d.exponent).toNat) ≤ 0 :=
      Format.double.nearest_le (Nat.pow_pos (by decide)) (by simp [hzero])
    omega
  · have hfigures : d.figures.length ≤ 16 :=
      (Nat.length_toDigits_le_iff (by decide) (by decide)).mpr (hdigits.trans (by decide))
    refine Decimal.code_eq_nearest hzero ?_ ?_ <;> rw [Decimal.places, Decimal.horizon] <;> omega

/-- What has the value of a decimal of few figures is rounded as it is. -/
theorem ofRatio_eq_toDouble {d : Decimal} (hdigits : d.digits < 2 ^ 53)
    (hexponent : d.exponent.natAbs ≤ 22) {num den : Nat} (hden : 0 < den)
    (h : (num / den : ℚ) = d.value) {negative : Bool} :
    Binary.ofRatio .double negative num den = d.toDouble negative := by
  have hcode : Format.double.nearest num den = d.code := by
    rw [code_eq_nearest_of_plain hdigits hexponent]
    exact Format.double.nearest_congr hden (Nat.pow_pos (by decide)) (h.trans d.value_eq_div)
  simp only [Binary.ofRatio, Decimal.toDouble, hcode]

theorem isFinite_toDouble_of_plain {d : Decimal} (hdigits : d.digits < 2 ^ 53)
    (hexponent : d.exponent.natAbs ≤ 22) (negative : Bool) :
    (d.toDouble negative).isFinite = true := by
  have hvalue : d.value ≤ 10 ^ 308 := by
    have hten : (10 : ℚ) ^ d.exponent ≤ 10 ^ 22 := by
      rw [← zpow_natCast]
      exact zpow_le_zpow_right₀ (by norm_num) (by omega)
    have hsmall : (d.digits : ℚ) ≤ 2 ^ 53 := by exact_mod_cast hdigits.le
    calc d.value ≤ 2 ^ 53 * 10 ^ 22 := by
          rw [Decimal.value]
          gcongr
      _ ≤ 10 ^ 308 := by exact_mod_cast (by decide +kernel : 2 ^ 53 * 10 ^ 22 ≤ 10 ^ 308)
  have hpow : 0 < Nat.pow 10 (-d.exponent).toNat := Nat.pow_pos (by decide)
  rw [← ofRatio_eq_toDouble hdigits hexponent hpow d.value_eq_div.symm]
  exact Binary.Double.isFinite_ofRatio hpow (d.value_eq_div.symm.trans_le hvalue)

/-- **Scaling** few digits by a small power rounds once. -/
theorem scale_eq_of_plain {d : Decimal} (hdigits : d.digits < 2 ^ 53)
    (hexponent : d.exponent.natAbs ≤ 22) :
    scale d.digits d.exponent = some (d.toDouble false) := by
  have hx := magnitude_ofNat hdigits
  have hpower := magnitude_tenTo hexponent
  have hnear : d.exponent.natAbs ≤ greatestPower := hexponent.trans (by decide)
  rw [scale, scaleFrom, if_pos hnear]
  by_cases hneg : d.exponent < 0
  · have hunits : 0 < (tenTo d.exponent.natAbs).units :=
      Format.double.units_pos_iff.mpr (Nat.pos_of_ne_zero (code_tenTo_ne_zero hnear))
    have hvalue := Binary.div_ratio (.ofNat .double d.digits) (tenTo d.exponent.natAbs)
    rw [hx, hpower, div_pow_natAbs hneg] at hvalue
    have heq : (Binary.ofNat .double d.digits).div (tenTo d.exponent.natAbs) = d.toDouble false :=
      ofRatio_eq_toDouble hdigits hexponent hunits hvalue
    rw [if_pos hneg, heq]
  · have hvalue := Binary.mul_ratio (.ofNat .double d.digits) (tenTo d.exponent.natAbs)
    have hten : (10 : ℚ) ^ d.exponent.natAbs = 10 ^ d.exponent := by
      rw [← zpow_natCast]
      congr 1
      omega
    rw [hx, hpower, hten] at hvalue
    have heq : (Binary.ofNat .double d.digits).mul (tenTo d.exponent.natAbs) = d.toDouble false :=
      ofRatio_eq_toDouble hdigits hexponent (Binary.pow_two_mul_depth_pos _) hvalue
    rw [if_neg hneg, heq]
    exact Option.filter_eq_some_iff.mpr ⟨rfl, isFinite_toDouble_of_plain hdigits hexponent false⟩

/-! ### Plain numbers -/

variable {n : Numeral}

/-- An exponent of 32 bits is followed to its end. -/
theorem magnitude?_eq_scale {k : Nat} {places : Int} {exponent : Option (Bool × List Char)}
    (hexponent : ∀ e ∈ exponent, e.2 ≠ [] ∧ ∀ c ∈ e.2, c.isDigit = true)
    (hpower : (power exponent).natAbs ≤ greatestExponent) :
    magnitude? k places exponent = scale k (places + power exponent) := by
  rcases exponent with - | ⟨down, digits⟩
  · rw [power, Int.add_zero]
    rfl
  obtain ⟨hne, hdigits⟩ := hexponent _ rfl
  have hle : Nat.ofDigitChars 10 digits 0 ≤ greatestExponent := by
    cases down <;> simpa [power] using hpower
  rw [magnitude?, power, Text.digits?_eq_some_iff.mpr ⟨hne, hdigits, rfl, hle⟩]
  cases down <;> rfl

/-- All digits of a plain number are taken, and its exponent is followed to its end. -/
theorem IsPlain.value?_eq (h : n.IsPlain) (hn : n.IsDecimal) (hlong : ¬n.IsShort) :
    n.value? = some (.float n.nearest) := by
  have hdigits : Nat.ofDigitChars 10 (n.whole ++ n.fraction) 0 ≤ Text.max64 :=
    h.digits.le.trans (by decide)
  have hscale := scale_eq_of_plain h.digits h.exponent
  have hexponent : (power n.exponent - n.fraction.length).natAbs ≤ 22 := h.exponent
  rw [decimal, Nat.ofDigitChars_append] at hscale
  rw [Nat.ofDigitChars_append] at hdigits
  have hwhole : Nat.ofDigitChars 10 n.whole 0 ≤ Text.max64 := Text.le_ofDigitChars.trans hdigits
  have hnotall : ¬(n.fraction.isEmpty && n.exponent.isNone
      && n.whole.length - (0 + n.whole.length) == 0) = true := by
    simpa [IsShort, hwhole] using hlong
  have hpower : (power n.exponent).natAbs ≤ greatestExponent := by
    have hlength := hn.fraction_length
    rw [reach] at hlength
    rw [greatestExponent]
    omega
  have hplaces : ((n.whole.length - (0 + n.whole.length) : Nat) : Int)
      - (0 + n.fraction.length : Nat) + power n.exponent
        = power n.exponent - n.fraction.length := by omega
  simp only [value?, absorb_of_le hwhole, absorb_of_le hdigits]
  rw [if_neg hnotall, magnitude?_eq_scale hn.exponent hpower, hplaces, hscale, Option.map_some,
    nearest, decimal, Nat.ofDigitChars_append]
  cases n.negative <;> rfl

/-- **A plain number** comes out as the double that is nearest to it. -/
theorem IsPlain.isDouble_nearest (h : n.IsPlain) (hn : n.IsDecimal) :
    (Tree.number n).IsDouble n.nearest := by
  by_cases hshort : n.IsShort
  · have hnearest {negative : Bool} : Binary.ofRatio .double negative
        (Nat.ofDigitChars 10 n.whole 0) 1 = n.decimal.toDouble negative := by
      refine ofRatio_eq_toDouble h.digits h.exponent Nat.one_pos ?_
      rw [decimal_of_isShort hshort, Nat.cast_one, div_one]
    have hvalue := value?_of_isShort hshort
    rw [nearest]
    cases hsign : n.negative with
    | false =>
      rw [hsign, if_pos rfl] at hvalue
      rw [← hnearest]
      exact .integer hvalue
    | true =>
      rw [hsign, if_neg (by decide)] at hvalue
      rw [← hnearest]
      split at hvalue
      · next hpos =>
        have hdouble := Tree.IsDouble.integer hvalue
        have hless : decide (-(Nat.ofDigitChars 10 n.whole 0 : Int) < 0) = true :=
          decide_eq_true (by omega)
        rwa [hless, Int.natAbs_neg, Int.natAbs_natCast] at hdouble
      · exact .float hvalue
  · exact .float (h.value?_eq hn hshort)

end Numeral

/-- **Every plain number** of a tree that a text begins with is in range, and comes out as the
double that is nearest to it. -/
theorem Begins.isDouble_nearest {text rest : List UInt8} {t : Tree} {n : Numeral}
    (h : Begins text t rest) (hn : .number n ∈ t.toTokens) (hlength : text.length ≤ Numeral.reach)
    (hplain : n.IsPlain) : n.nearest.isFinite = true ∧ (Tree.number n).IsDouble n.nearest := by
  obtain ⟨u, hu, hle⟩ := h.exists_spelled hn
  cases hu with
  | number hspelled =>
    have hdecimal := hspelled.isDecimal (Nat.le_trans hle hlength)
    have hfinite := Numeral.isFinite_toDouble_of_plain hplain.digits hplain.exponent n.negative
    exact ⟨hfinite, hplain.isDouble_nearest hdecimal⟩

end SpeechService.Json
