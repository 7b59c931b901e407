import SpeechService.Proofs.Binary.Exact
import SpeechService.Proofs.Json.Scaling
import SpeechService.Proofs.Json.Tokens

/-!
# How near numbers are read

A number has an exact value, that of its digits and its exponent (`Json.Numeral.decimal`). The
double that is read is near to it, and there is one exactly if the value is in range, up to one part
in `2 ^ 47` of either (`Json.Numeral.Spelled.isReadNearby`).

Of many digits only those in front are taken. They are taken until the significand is so large that
the others count for less than a rounding (`Json.Numeral.apart_taken`), which holds as well where
digits before the point are dropped and one behind it is still taken.
-/

namespace SpeechService.Json

open SpeechService.Binary (Format)

namespace Numeral

/-! ### Digits that are dropped -/

/-- More digits change a number by less than one of its units. -/
theorem ofDigitChars_bounds (start : Nat) {digits : List Char}
    (hdigits : ∀ c ∈ digits, c.isDigit = true) :
    start * 10 ^ digits.length ≤ Nat.ofDigitChars 10 digits start ∧
      Nat.ofDigitChars 10 digits start < (start + 1) * 10 ^ digits.length := by
  induction digits generalizing start with
  | nil => simp
  | cons c digits ih =>
    obtain ⟨hc, hdigits⟩ := List.forall_mem_cons.mp hdigits
    have hdigit : c.toNat - '0'.toNat ≤ 9 := by
      have hle : c.toNat ≤ 57 := (Char.isDigit_iff_toNat.mp hc).2
      have hzero : '0'.toNat = 48 := rfl
      omega
    obtain ⟨hlow, hhigh⟩ := ih (10 * start + (c.toNat - '0'.toNat)) hdigits
    rw [Nat.ofDigitChars_cons, List.length_cons, Nat.pow_succ']
    constructor
    · calc start * (10 * 10 ^ digits.length)
          = 10 * start * 10 ^ digits.length := by ring
        _ ≤ (10 * start + (c.toNat - '0'.toNat)) * 10 ^ digits.length := by
            gcongr
            exact Nat.le_add_right _ _
        _ ≤ _ := hlow
    · calc _ < (10 * start + (c.toNat - '0'.toNat) + 1) * 10 ^ digits.length := hhigh
        _ ≤ (10 * start + 9 + 1) * 10 ^ digits.length := by gcongr
        _ = (start + 1) * (10 * 10 ^ digits.length) := by ring

/-- So large is a number that takes no further digit. -/
def IsFull (n : Nat) : Prop := Text.max64 < 10 * n + 9

/-- Digits are taken from the front, all of them or until the number is full. -/
theorem exists_absorb {start : Nat} (taken : Nat) {digits : List Char} (hstart : start ≤ Text.max64)
    (hdigits : ∀ c ∈ digits, c.isDigit = true) :
    ∃ front behind, digits = front ++ behind ∧
      absorb start taken digits = (Nat.ofDigitChars 10 front start, taken + front.length) ∧
      Nat.ofDigitChars 10 front start ≤ Text.max64 ∧
      (behind = [] ∨ IsFull (Nat.ofDigitChars 10 front start)) := by
  induction digits generalizing start taken with
  | nil => exact ⟨[], [], rfl, rfl, hstart, .inl rfl⟩
  | cons c digits ih =>
    obtain ⟨hc, hrest⟩ := List.forall_mem_cons.mp hdigits
    rw [absorb]
    by_cases hfull : Text.max64 < 10 * start + (c.toNat - '0'.toNat)
    · have hdigit : c.toNat ≤ 57 := (Char.isDigit_iff_toNat.mp hc).2
      have hzero : '0'.toNat = 48 := rfl
      refine ⟨[], c :: digits, rfl, if_pos hfull, hstart, .inr ?_⟩
      rw [Nat.ofDigitChars_nil, IsFull]
      omega
    · obtain ⟨front, behind, rfl, habsorb, hle, hbehind⟩ :=
        ih (taken + 1) (Nat.not_lt.mp hfull) hrest
      refine ⟨c :: front, behind, rfl, ?_, ?_, ?_⟩
      · rw [if_neg hfull, habsorb, Nat.ofDigitChars_cons, List.length_cons, Nat.add_assoc,
          Nat.add_comm 1]
      · rwa [Nat.ofDigitChars_cons]
      · rwa [Nat.ofDigitChars_cons]

/-- Two numbers that begin with a full one are no more than one rounding apart. -/
theorem apart_of_isFull {n a b k : Nat} (hn : IsFull n) (ha : n * 10 ^ k ≤ a)
    (ha' : a < (n + 1) * 10 ^ k) (hb : n * 10 ^ k ≤ b) (hb' : b < (n + 1) * 10 ^ k) :
    Format.double.Apart 1 0 a b := by
  have hlarge : 2 ^ 53 ≤ n := by
    rw [IsFull, Text.max64] at hn
    omega
  have hnext : (((n + 1) * 10 ^ k : Nat) : ℚ) ≤ Format.double.step * (n * 10 ^ k : Nat) := by
    have hn' : (2 : ℚ) ^ 53 ≤ n := by exact_mod_cast hlarge
    push_cast
    rw [Binary.Double.step_eq, ← mul_assoc]
    gcongr
    linarith
  have hle {x y : Nat} (hx : x < (n + 1) * 10 ^ k) (hy : n * 10 ^ k ≤ y) :
      (x : ℚ) ≤ Format.double.step ^ 1 * y + 0 := by
    rw [pow_one, add_zero]
    have hstep := Format.double.step_pos.le
    exact le_trans (Nat.cast_le.mpr hx.le)
      (le_trans hnext (mul_le_mul_of_nonneg_left (Nat.cast_le.mpr hy) hstep))
  exact ⟨hle ha' hb, hle hb' ha⟩

/-- **Dropped digits.** The digits that are taken stand for all of them. -/
theorem apart_taken {front behind front' behind' : List Char}
    (hdigits : ∀ c ∈ behind ++ (front' ++ behind'), c.isDigit = true)
    (hwhole : behind = [] ∨ IsFull (Nat.ofDigitChars 10 front 0))
    (hfraction : behind' = [] ∨ IsFull (Nat.ofDigitChars 10 (front ++ front') 0)) :
    Format.double.Apart 1 0
      (Nat.ofDigitChars 10 (front ++ front') 0 * 10 ^ (behind.length + behind'.length) : Nat)
      (Nat.ofDigitChars 10 (front ++ (behind ++ (front' ++ behind'))) 0) := by
  obtain ⟨-, hrest⟩ := List.forall_mem_append.mp hdigits
  obtain ⟨hfront', hbehind'⟩ := List.forall_mem_append.mp hrest
  rcases hwhole with rfl | hfull
  · -- The digits before the point are all taken, and those behind it go on with them.
    rw [List.nil_append, ← List.append_assoc, List.length_nil, Nat.zero_add,
      Nat.ofDigitChars_append (l := front ++ front')]
    generalize Nat.ofDigitChars 10 (front ++ front') 0 = n at hfraction
    rcases hfraction with rfl | hfull
    · rw [List.length_nil, pow_zero, mul_one, Nat.ofDigitChars_nil]
      exact (Format.Apart.refl _).mono n.cast_nonneg n.cast_nonneg zero_le_one le_rfl
    · obtain ⟨hlow, hhigh⟩ := ofDigitChars_bounds n hbehind'
      refine apart_of_isFull hfull le_rfl ?_ hlow hhigh
      exact Nat.mul_lt_mul_of_pos_right (Nat.lt_succ_self n) (Nat.pow_pos (by decide))
  · -- All digits begin with those before the point that are taken, whichever come behind them.
    rw [Nat.ofDigitChars_append (l := front), Nat.ofDigitChars_append (l := front)]
    generalize Nat.ofDigitChars 10 front 0 = n at hfull
    obtain ⟨hlow, hhigh⟩ := ofDigitChars_bounds n hdigits
    obtain ⟨hlow', hhigh'⟩ := ofDigitChars_bounds n hfront'
    have hlength : (behind ++ (front' ++ behind')).length
        = front'.length + (behind.length + behind'.length) := by
      simp only [List.length_append]
      omega
    rw [hlength] at hlow hhigh
    have hpow : 0 < 10 ^ (behind.length + behind'.length) := Nat.pow_pos (by decide)
    refine apart_of_isFull hfull ?_ ?_ hlow hhigh
    · rw [Nat.pow_add 10 front'.length, ← Nat.mul_assoc]
      exact Nat.mul_le_mul_right _ hlow'
    · rw [Nat.pow_add 10 front'.length, ← Nat.mul_assoc]
      exact Nat.mul_lt_mul_of_pos_right hhigh' hpow

/-! ### Numbers -/

/-- The digits of a number are digits, and it does not reach too far from the point. -/
structure IsDecimal (n : Numeral) : Prop where
  whole : ∀ c ∈ n.whole, c.isDigit = true
  fraction : ∀ c ∈ n.fraction, c.isDigit = true
  exponent : ∀ e ∈ n.exponent, e.2 ≠ [] ∧ ∀ c ∈ e.2, c.isDigit = true
  whole_length : n.whole.length ≤ reach
  fraction_length : n.fraction.length ≤ reach

/-- The exact magnitude of a number as a **decimal**. -/
def decimal (n : Numeral) : Decimal :=
  ⟨Nat.ofDigitChars 10 (n.whole ++ n.fraction) 0, power n.exponent - n.fraction.length⟩

/-- The value of a numeral is taken without its sign. -/
theorem decimal_value_nonneg (n : Numeral) : 0 ≤ n.decimal.value := by
  rw [Decimal.value]
  positivity

/-- The number is finite, has a sign, and is near to a magnitude. -/
structure IsNear (x : Double) (negative : Bool) (y : ℚ) : Prop where
  negative_eq : x.negative = negative
  isFinite : x.isFinite = true
  apart : Format.double.Apart 15 (5 * Format.double.grain) x.magnitude y

/-- What is read by a few roundings is near the value, and so near the value before it was cut. -/
theorem Reads.isNear {y y' : ℚ} (h : Reads x 14 (4 * Format.double.grain) y)
    (hy : Format.double.Apart 1 0 y y') (hy' : 0 ≤ y') (negative : Bool) :
    IsNear (if negative then x.neg else x) negative y' := by
  have hgrain := Format.double.grain_pos
  have hstep := Binary.Double.step_pow_le (k := 1) (by decide)
  have hrest : Format.double.step ^ 14 * 0 + Format.double.step ^ 1 * (4 * Format.double.grain)
      ≤ 5 * Format.double.grain := by
    calc Format.double.step ^ 14 * 0 + Format.double.step ^ 1 * (4 * Format.double.grain)
        ≤ 0 + (1 + 1 / 2 ^ 48) * (4 * Format.double.grain) := by
          rw [mul_zero]
          gcongr
      _ ≤ 5 * Format.double.grain := by linarith
  have happart := (h.apart.trans hy (by positivity) le_rfl).mono x.magnitude_nonneg hy' le_rfl hrest
  cases negative with
  | false => exact ⟨h.negative, h.isFinite, happart⟩
  | true => exact ⟨congrArg (!·) h.negative, h.isFinite, happart⟩

/-- The value of a short numeral is the integer that its digits write. -/
theorem decimal_of_isShort {n : Numeral} (h : n.IsShort) :
    n.decimal.value = Nat.ofDigitChars 10 n.whole 0 := by
  obtain ⟨hfraction, hexponent, -⟩ := h
  rw [Decimal.value, decimal, hfraction, hexponent, power]
  simp

/-- An integer of 64 bits is rounded once. -/
theorem isNear_of_isShort {n : Numeral} (h : n.IsShort) (negative : Bool) :
    IsNear (.ofRatio .double negative (Nat.ofDigitChars 10 n.whole 0) 1) negative
      n.decimal.value := by
  rw [decimal_of_isShort h]
  have hgrain := Format.double.grain_pos
  have hreads := reads_ofNat h.2.2
  refine ⟨rfl, hreads.isFinite, ?_⟩
  exact hreads.apart.mono (Binary.magnitude_nonneg _) (Nat.cast_nonneg _) (by decide)
    (by positivity)

variable {n : Numeral}

/-- A number that is no short integer is scaled. -/
theorem exists_value? (hn : n.IsDecimal) (h : ¬n.IsShort) :
    ∃ o y, n.value? = o.map (fun x => .float (if n.negative then x.neg else x)) ∧ Rounds o y ∧
      Format.double.Apart 1 0 y n.decimal.value := by
  have hlong : ¬(n.fraction.isEmpty && n.exponent.isNone
      && n.whole.length - (absorb 0 0 n.whole).2 == 0) = true := by
    simpa [IsShort, dropped_eq_zero, and_assoc] using h
  obtain ⟨front, behind, hwhole, habsorb, hle, hbehind⟩ :=
    exists_absorb 0 (Nat.zero_le _) hn.whole
  obtain ⟨front', behind', hfraction, habsorb', hle', hbehind'⟩ :=
    exists_absorb 0 hle hn.fraction
  have hdropped : n.whole.length - (0 + front.length) = behind.length := by
    rw [hwhole, List.length_append]
    omega
  have hplaces : ((behind.length : Int) - (0 + front'.length : Nat)).natAbs ≤ reach := by
    have hw := hn.whole_length
    have hf := hn.fraction_length
    rw [hwhole, List.length_append] at hw
    rw [hfraction, List.length_append] at hf
    omega
  refine ⟨_, _, ?_, rounds_magnitude? hle' hplaces hn.exponent, ?_⟩
  · simp only [habsorb, hdropped] at hlong
    simp only [value?, habsorb, habsorb', hdropped]
    rw [if_neg hlong]
  · rw [← Nat.ofDigitChars_append] at hbehind' ⊢
    have hdigits : ∀ c ∈ behind ++ (front' ++ behind'), c.isDigit = true := by
      rw [← hfraction]
      refine List.forall_mem_append.mpr ⟨fun c hc => hn.whole c ?_, hn.fraction⟩
      rw [hwhole]
      exact List.mem_append_right _ hc
    have happart := apart_taken hdigits hbehind hbehind'
    rw [Decimal.value, decimal, hwhole, hfraction, List.append_assoc]
    generalize Nat.ofDigitChars 10 (front ++ front') 0 = taken at happart
    generalize Nat.ofDigitChars 10 (front ++ (behind ++ (front' ++ behind'))) 0 = all at happart
    have hten : (10 : ℚ) ≠ 0 := by norm_num
    -- The digits that were dropped are made up for in the power.
    have hvalue : (taken : ℚ) * 10 ^ ((behind.length : Int) - (0 + front'.length : Nat)
          + power n.exponent)
        = (taken * 10 ^ (behind.length + behind'.length) : Nat)
          * 10 ^ (power n.exponent - (front' ++ behind').length) := by
      rw [Nat.cast_mul, Nat.cast_pow, Nat.cast_ofNat, mul_assoc, ← zpow_natCast, ← zpow_add₀ hten,
        List.length_append]
      congr 2
      push_cast
      ring
    rw [hvalue]
    exact happart.mul (.refl _) (Nat.cast_nonneg _) (Nat.cast_nonneg _) (by positivity)
      (by positivity)

/-- A number that is read as a double is near the value of its numeral. -/
theorem isNear_of_float (hn : n.IsDecimal) {x : Double} (h : n.value? = some (.float x)) :
    IsNear x n.negative n.decimal.value := by
  by_cases hshort : n.IsShort
  · -- Zero with a minus sign, or an integer below those of 64 bits.
    have hnear := isNear_of_isShort hshort n.negative
    rw [value?_of_isShort hshort] at h
    have hvalue := Option.some.inj h
    cases hn : n.negative with
    | false =>
      rw [hn, if_pos rfl] at hvalue
      cases hvalue
    | true =>
      rw [hn, if_neg (by decide)] at hvalue
      split at hvalue
      · cases hvalue
      · obtain rfl := Number.float.inj hvalue
        rwa [hn] at hnear
  · obtain ⟨o, y, hvalue, hrounds, happart⟩ := exists_value? hn hshort
    rw [hvalue] at h
    obtain ⟨z, rfl, hz⟩ := Option.map_eq_some_iff.mp h
    obtain rfl := Number.float.inj hz
    exact (hrounds.reads z rfl).isNear happart n.decimal_value_nonneg n.negative

/-- A number that is read as an integer is near the value of its numeral when it is made a double.
-/
theorem isNear_of_integer {i : Int} (h : n.value? = some (.integer i)) :
    IsNear (.ofRatio .double (i < 0) i.natAbs 1) n.negative n.decimal.value := by
  have hshort : n.IsShort := by
    by_contra hlong
    exact value?_of_not_isShort hlong h
  obtain ⟨hliteral, -, -, hzero⟩ := value?_eq_integer.mp h
  have heq := hliteral.eq
  have hnear := isNear_of_isShort hshort n.negative
  cases hn : n.negative with
  | false =>
    rw [hn, if_neg (by decide)] at heq
    rw [hn] at hnear
    have hsign : decide (i < 0) = false := decide_eq_false (by omega)
    rwa [hsign, heq, Int.natAbs_natCast]
  | true =>
    rw [hn, if_pos rfl] at heq
    rw [hn] at hnear
    have hsign : decide (i < 0) = true := decide_eq_true (by
      have hne : i ≠ 0 := fun hi => hzero ⟨hn, hi⟩
      omega)
    rwa [hsign, heq, Int.natAbs_neg, Int.natAbs_natCast]

/-- Only what is out of range has no value. -/
theorem le_of_value?_eq_none (hn : n.IsDecimal) (h : n.value? = none) :
    2 ^ 1024 ≤ Format.double.step ^ 6 * n.decimal.value := by
  have hshort : ¬n.IsShort := by
    intro hshort
    rw [value?_of_isShort hshort] at h
    cases h
  obtain ⟨o, y, hvalue, hrounds, happart⟩ := exists_value? hn hshort
  rw [hvalue] at h
  have hle := happart.le
  rw [add_zero] at hle
  calc (2 : ℚ) ^ 1024 ≤ Format.double.step ^ 5 * y := hrounds.beyond (Option.map_eq_none_iff.mp h)
    _ ≤ Format.double.step ^ 5 * (Format.double.step ^ 1 * n.decimal.value) :=
        mul_le_mul_of_nonneg_left hle (pow_nonneg Format.double.step_pos.le 5)
    _ = Format.double.step ^ 6 * n.decimal.value := by ring

end Numeral

/-! ### Spelled numbers -/

theorem isDigit_byteChar {b : UInt8} (h : isDigit b = true) : (byteChar b).isDigit = true := by
  have hvalid : b.toNat.isValidChar := .inl (lt_trans b.toNat_lt (by decide))
  have htoNat : (byteChar b).toNat = b.toNat := by
    rw [byteChar, Char.ofNat, dif_pos hvalid]
    rfl
  simp only [isDigit, Bool.and_eq_true, decide_eq_true_eq, UInt8.le_iff_toNat_le] at h
  rw [Char.isDigit_iff_toNat, htoNat]
  exact h

theorem DigitsSpelled.isDigit_of_mem {digits : List Char} {s : List UInt8}
    (h : DigitsSpelled digits s) {c : Char} (hc : c ∈ digits) : c.isDigit = true := by
  rw [h.eq] at hc
  obtain ⟨b, hb, rfl⟩ := List.mem_map.mp hc
  exact isDigit_byteChar (h.isDigit b hb)

theorem DigitsSpelled.length_eq {digits : List Char} {s : List UInt8} (h : DigitsSpelled digits s) :
    digits.length = s.length := by
  rw [h.eq, List.length_map]

theorem DigitsSpelled.digits_ne_nil {digits : List Char} {s : List UInt8}
    (h : DigitsSpelled digits s) : digits ≠ [] := by
  rw [h.eq]
  exact mt List.map_eq_nil_iff.mp h.ne_nil

/-- A numeral that is not too long when it is spelled is a decimal. -/
theorem Numeral.UnsignedSpelled.isDecimal {n : Numeral} {u : List UInt8} (h : n.UnsignedSpelled u)
    (hu : u.length ≤ reach) : n.IsDecimal := by
  obtain ⟨w, f, e, rfl, hwhole, hfraction, hexponent⟩ := h.parts
  rw [List.length_append, List.length_append] at hu
  have hlength := hwhole.length_eq
  refine ⟨fun c => hwhole.isDigit_of_mem, fun c hc => ?_, fun part hpart => ?_, by omega, ?_⟩
  · generalize n.fraction = digits at hfraction hc
    cases hfraction with
    | none => cases hc
    | point hdigits => exact hdigits.isDigit_of_mem hc
  · generalize n.exponent = exponent at hexponent hpart
    cases hexponent with
    | none => cases hpart
    | some _ _ hdigits =>
      obtain rfl := Option.some.inj hpart
      exact ⟨hdigits.digits_ne_nil, fun c => hdigits.isDigit_of_mem⟩
  · generalize n.fraction = digits at hfraction
    cases hfraction with
    | none => exact Nat.zero_le _
    | point hdigits =>
      have hbehind := hdigits.length_eq
      rw [List.length_cons] at hu
      omega

theorem Numeral.Spelled.isDecimal {n : Numeral} {u : List UInt8} (h : n.Spelled u)
    (hu : u.length ≤ reach) : n.IsDecimal := by
  cases h with
  | plain _ h => exact h.isDecimal hu
  | minus _ h =>
    rw [List.length_cons] at hu
    exact h.isDecimal (Nat.le_of_succ_le hu)

/-! ### Numbers of a text -/

namespace Numeral

/-- The number is read as a double **nearby** if it is in range, and as none otherwise. -/
structure IsReadNearby (n : Numeral) : Prop where
  near : ∀ x, (Tree.number n).IsDouble x → x.negative = n.negative ∧ x.isFinite = true ∧
    |x.magnitude - n.decimal.value| ≤ n.decimal.value / 2 ^ 47 + 1 / 2 ^ 1072
  exists_isDouble : (1 + 1 / 2 ^ 47) * n.decimal.value < 2 ^ 1024 → ∃ x, (Tree.number n).IsDouble x
  value_lt : ∀ x, (Tree.number n).IsDouble x → n.decimal.value < (1 + 1 / 2 ^ 47) * 2 ^ 1024

theorem grain_mul_eight : Format.double.grain * 8 = 1 / 2 ^ 1072 := by
  have hpow : (2 : ℚ) ^ (Format.double.depth + 1) = 2 ^ 1072 * 8 := by
    have height : (8 : ℚ) = 2 ^ 3 := by norm_num
    rw [height, ← pow_add, Binary.Double.depth_eq]
  rw [Format.grain, hpow, ← div_div, div_mul_cancel₀ _ (by norm_num)]

/-- How near a double is, as a difference. -/
theorem IsNear.abs_sub_le {x : Double} {negative : Bool} {y : ℚ} (h : IsNear x negative y)
    (hy : 0 ≤ y) : |x.magnitude - y| ≤ y / 2 ^ 47 + 1 / 2 ^ 1072 := by
  have hgrain := Format.double.grain_pos
  have hstep := Binary.Double.step_pow_le (k := 15) (by decide)
  have hx := x.magnitude_nonneg
  have hle : x.magnitude ≤ (1 + 1 / 2 ^ 48) * y + 5 * Format.double.grain :=
    le_trans h.apart.le (by gcongr)
  have hge : y ≤ (1 + 1 / 2 ^ 48) * x.magnitude + 5 * Format.double.grain :=
    le_trans h.apart.ge (by gcongr)
  rw [← grain_mul_eight]
  generalize x.magnitude = m at *
  generalize Format.double.grain = g at *
  refine abs_le.mpr ⟨?_, ?_⟩ <;> linarith

/-- A numeral with a double near it is not much beyond the greatest double. -/
theorem IsNear.lt {x : Double} {negative : Bool} {y : ℚ} (h : IsNear x negative y) :
    y < (1 + 1 / 2 ^ 47) * 2 ^ 1024 := by
  have hgrain := Binary.Double.grain_le (k := 3) (by decide)
  have hstep := Binary.Double.step_pow_le (k := 15) (by decide)
  have hx := x.magnitude_nonneg
  have hlt := Binary.Double.magnitude_lt h.isFinite
  have hge : y ≤ (1 + 1 / 2 ^ 48) * x.magnitude + 5 * Format.double.grain :=
    le_trans h.apart.ge (by gcongr)
  have hpow : (2 : ℚ) ^ 1024 = 2 ^ 48 * 2 ^ 976 := by rw [← pow_add]
  have hone : (1 : ℚ) ≤ 2 ^ 976 := one_le_pow₀ (by norm_num)
  rw [hpow] at hlt ⊢
  clear hpow
  generalize (2 : ℚ) ^ 976 = p at *
  generalize x.magnitude = m at *
  linarith

variable {n : Numeral}

/-- **Near.** Whatever double a numeral is read as is near its value. -/
theorem IsDecimal.isNear (hn : n.IsDecimal) {x : Double} (h : (Tree.number n).IsDouble x) :
    IsNear x n.negative n.decimal.value := by
  cases h with
  | integer h => exact isNear_of_integer h
  | float h => exact isNear_of_float hn h

/-- **In range.** A numeral that is well below the end of the range is read as some double. -/
theorem IsDecimal.exists_isDouble (hn : n.IsDecimal)
    (h : (1 + 1 / 2 ^ 47) * n.decimal.value < 2 ^ 1024) : ∃ x, (Tree.number n).IsDouble x := by
  cases hvalue : n.value? with
  | some v =>
    cases v with
    | integer i => exact ⟨_, .integer hvalue⟩
    | float x => exact ⟨_, .float hvalue⟩
  | none =>
    have hpos := n.decimal_value_nonneg
    have hstep := Binary.Double.step_pow_le (k := 6) (by decide)
    have hparts : (1 + 1 / 2 ^ 48 : ℚ) ≤ 1 + 1 / 2 ^ 47 := by norm_num
    have hle := calc (2 : ℚ) ^ 1024
        ≤ Format.double.step ^ 6 * n.decimal.value := le_of_value?_eq_none hn hvalue
      _ ≤ (1 + 1 / 2 ^ 47) * n.decimal.value :=
        mul_le_mul_of_nonneg_right (le_trans hstep hparts) hpos
    exact absurd h (not_lt.mpr hle)

/-- **Numbers** are read nearby, however they are spelled. -/
theorem Spelled.isReadNearby {u : List UInt8} (h : n.Spelled u) (hu : u.length ≤ reach) :
    n.IsReadNearby := by
  have hdecimal := h.isDecimal hu
  refine ⟨fun x hx => ?_, hdecimal.exists_isDouble, fun x hx => (hdecimal.isNear hx).lt⟩
  have hnear := hdecimal.isNear hx
  exact ⟨hnear.negative_eq, hnear.isFinite, hnear.abs_sub_le n.decimal_value_nonneg⟩

end Numeral

/-- **Every number** of a tree that a text begins with is read nearby. -/
theorem Begins.isReadNearby {text rest : List UInt8} {t : Tree} {n : Numeral}
    (h : Begins text t rest) (hn : .number n ∈ t.toTokens)
    (hlength : text.length ≤ Numeral.reach) : n.IsReadNearby := by
  obtain ⟨u, hu, hle⟩ := h.exists_spelled hn
  cases hu with
  | number hspelled => exact hspelled.isReadNearby (Nat.le_trans hle hlength)

end SpeechService.Json
