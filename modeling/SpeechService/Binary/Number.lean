import SpeechService.Binary.Format

/-!
# Numbers of a binary format

`Binary f` holds a sign and a code of the format `f`; every bit pattern is kept apart, also those
that are not numbers. `Single` and `Double` are the two formats in use. Conversions between
formats and from fractions are exact values rounded once by `Format.nearest`.
-/

namespace SpeechService

open SpeechService.Binary (Format)

/-- A **bit pattern** of the format `f`: its sign and the code of its magnitude. -/
structure Binary (f : Format) where
  /-- The sign bit. -/
  negative : Bool
  /-- The bits below the sign. -/
  code : Nat
  code_lt : code < f.codes
deriving DecidableEq, Repr

/-- Patterns of 32 bits. -/
abbrev Single := Binary .single

/-- Patterns of 64 bits. -/
abbrev Double := Binary .double

namespace Binary

variable {f : Format}

/-- The pattern with the given bits; bits above the format's width are dropped. -/
def ofBits (f : Format) (bits : Nat) : Binary f :=
  ⟨bits / f.codes % 2 == 1, bits % f.codes, Nat.mod_lt _ (Nat.two_pow_pos _)⟩

/-- The bits of a pattern. -/
def bits (x : Binary f) : Nat := (if x.negative then f.codes else 0) + x.code

/-- Not a number: the code is beyond infinity. -/
def isNaN (x : Binary f) : Bool := f.infinity < x.code

/-- Neither an infinity nor a pattern that is not a number. -/
def isFinite (x : Binary f) : Bool := x.code < f.infinity

/-- A number above zero that is not infinite. -/
def isPositive (x : Binary f) : Bool := x.isFinite && !x.negative && x.code != 0

/-- The exact magnitude of a finite pattern, in multiples of the least positive magnitude. -/
def units (x : Binary f) : Nat := f.units x.code

/-- The nearest pattern to a signed fraction. -/
def ofRatio (f : Format) (negative : Bool) (num den : Nat) : Binary f :=
  ⟨negative, f.nearest num den, f.nearest_lt_codes num den⟩

/-- The nearest pattern to a natural number. -/
def ofNat (f : Format) (n : Nat) : Binary f := ofRatio f false n 1

/-- The infinity of the given sign. -/
def infinite (f : Format) (negative : Bool) : Binary f :=
  ⟨negative, f.infinity, f.infinity_lt_codes⟩

/-- Between infinity and the number of codes there is room for half a binade. -/
private theorem quiet_lt (f : Format) : (f.infinity + f.binade / 2) < f.codes := by
  have h : 0 < Nat.pow 2 f.exponentBits := Nat.two_pow_pos _
  have hb := f.binade_pos
  have hc : f.codes = f.infinity + f.binade := by
    rw [Format.codes_eq_mul_binade, Format.infinity, ← Nat.succ_mul]
    congr 1
    exact (Nat.succ_pred_eq_of_pos h).symm
  rw [hc]
  exact Nat.add_lt_add_left (Nat.div_lt_self hb (by decide)) _

/-- The pattern that stands for every result that is not a number: only the first fraction bit
is set. -/
def notNumber (f : Format) : Binary f := ⟨false, f.infinity + f.binade / 2, quiet_lt f⟩

/-- All patterns that are not numbers become one. -/
def canonical (x : Binary f) : Binary f := if x.isNaN then notNumber f else x

/-- The same value in another format, rounded to nearest. -/
def convert (g : Format) (x : Binary f) : Binary g :=
  if x.isNaN then notNumber g
  else if x.isFinite then ofRatio g x.negative x.units (Nat.pow 2 f.depth)
  else infinite g x.negative

/-- The opposite number. -/
def neg (x : Binary f) : Binary f := { x with negative := !x.negative }

/-- The product of two finite numbers, rounded once. -/
def mul (x y : Binary f) : Binary f :=
  ofRatio f (x.negative != y.negative) (x.units * y.units) (Nat.pow 2 (2 * f.depth))

/-- The quotient of two finite numbers, rounded once. -/
def div (x y : Binary f) : Binary f := ofRatio f (x.negative != y.negative) x.units y.units

/-- The integer part of the magnitude of a finite pattern. -/
def integerPart (x : Binary f) : Nat := x.units / Nat.pow 2 f.depth

/-- The magnitude of a finite pattern rounded to an integer, a half away from zero. -/
def rounded (x : Binary f) : Nat := (2 * x.units + Nat.pow 2 f.depth) / Nat.pow 2 (f.depth + 1)

/-- Clamps an integer drawn from a pattern into `0..limit`: what is not a number gives zero, and
so does everything below zero. -/
def clampNat (limit : Nat) (part : Binary f → Nat) (x : Binary f) : Nat :=
  if x.isNaN || x.negative then 0
  else if x.isFinite then min (part x) limit
  else limit

end Binary

end SpeechService
