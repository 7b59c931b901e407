/-!
# Binary interchange formats

A binary floating-point format is given by the widths of its fraction and exponent fields. The
bits below the sign, read as one natural number, are the **code** of a magnitude. Codes count the
magnitudes in increasing order, so rounding, truncating and comparing magnitudes are arithmetic
on codes:

* `Format.units` gives the exact value of a code as a multiple of the least positive magnitude;
* `Format.nearest` gives the code nearest to a fraction, ties to the even code.
-/

namespace SpeechService.Binary

/-- A **binary format**: a sign bit, an exponent field and a fraction field. -/
structure Format where
  /-- The width of the fraction field. -/
  fractionBits : Nat
  /-- The width of the exponent field. -/
  exponentBits : Nat
deriving DecidableEq, Repr

namespace Format

/-- The format of 32 bits. -/
def single : Format := ⟨23, 8⟩

/-- The format of 64 bits. -/
def double : Format := ⟨52, 11⟩

/-- The number of codes that share one exponent field. -/
def binade (f : Format) : Nat := Nat.pow 2 f.fractionBits

/-- The number of codes. -/
def codes (f : Format) : Nat := Nat.pow 2 (f.exponentBits + f.fractionBits)

/-- The code of infinity: all exponent bits set and an empty fraction. The codes above it are
not numbers. -/
def infinity (f : Format) : Nat := (Nat.pow 2 f.exponentBits - 1) * f.binade

/-- The least positive magnitude is two to the power of minus this number. -/
def depth (f : Format) : Nat := Nat.pow 2 (f.exponentBits - 1) - 2 + f.fractionBits

/-- The exact value of a code, as a multiple of the least positive magnitude. The first two
binades are evenly spaced, every further one is twice as wide as the one before. -/
def units (f : Format) (code : Nat) : Nat :=
  if code < f.binade then code
  else (f.binade + code % f.binade) * Nat.pow 2 (code / f.binade - 1)

/-- The code nearest to the fraction `num / den`, of two equally near ones the even one. Whatever
rounds beyond the largest finite code is infinity. -/
def nearest (f : Format) (num den : Nat) : Nat :=
  let scaled := num * Nat.pow 2 f.depth
  let whole := scaled / den
  let shift := whole.log2 - f.fractionBits
  let below := shift * f.binade + whole / Nat.pow 2 shift
  let twice := 2 * ((whole % Nat.pow 2 shift) * den + scaled % den)
  let spacing := Nat.pow 2 shift * den
  let code := if spacing < twice ∨ (spacing = twice ∧ below % 2 = 1) then below + 1 else below
  min code f.infinity

theorem binade_pos (f : Format) : 0 < f.binade := Nat.two_pow_pos _

/-- Every exponent field has as many codes as every other one. -/
theorem codes_eq_mul_binade (f : Format) : f.codes = Nat.pow 2 f.exponentBits * f.binade :=
  Nat.pow_add 2 f.exponentBits f.fractionBits

theorem infinity_lt_codes (f : Format) : f.infinity < f.codes := by
  have h : 0 < Nat.pow 2 f.exponentBits := Nat.two_pow_pos _
  rw [codes_eq_mul_binade, infinity]
  exact Nat.mul_lt_mul_of_lt_of_le (Nat.sub_lt h Nat.one_pos) (Nat.le_refl _) f.binade_pos

theorem nearest_le_infinity (f : Format) (num den : Nat) : f.nearest num den ≤ f.infinity :=
  Nat.min_le_right _ _

theorem nearest_lt_codes (f : Format) (num den : Nat) : f.nearest num den < f.codes :=
  Nat.lt_of_le_of_lt (f.nearest_le_infinity num den) f.infinity_lt_codes

end Format

end SpeechService.Binary
