import SpeechService.Binary.Decimal
import SpeechService.Text.Integer

/-!
# JSON numbers

A JSON number is an integer when it has neither a fraction nor an exponent and fits into 64 bits,
signed below zero and unsigned above. Any other number is a double, found in two roundings: as
many leading digits as fit into 64 bits are rounded to a double, which is then scaled by one
power of ten. A number beyond the range of doubles is none.

`Json.floatText` writes a double. Numbers that are neither small nor large have a point and no
exponent, and the others have an exponent.
-/

namespace SpeechService.Json

/-- The **spelling** of a number: its sign and the digits of its parts. -/
structure Numeral where
  negative : Bool
  whole : List Char
  fraction : List Char := []
  /-- The sign and the digits of the exponent. -/
  exponent : Option (Bool × List Char) := none
deriving DecidableEq, Repr

/-- The **value** of a number. -/
inductive Number where
  | integer (value : Int)
  | float (value : Double)
deriving DecidableEq, Repr

namespace Numeral

/-- Appends digits to a significand until it would leave 64 bits; gives the significand and the
number of digits taken, of which some may be taken already. -/
def absorb (significand taken : Nat) : List Char → Nat × Nat
  | [] => (significand, taken)
  | c :: rest =>
    let next := 10 * significand + (c.toNat - '0'.toNat)
    if Text.max64 < next then (significand, taken) else absorb next (taken + 1) rest

/-- The greatest power of ten that is a double. -/
def greatestPower : Nat := 308

/-- A power of ten as a double. -/
def tenTo (n : Nat) : Double := .ofNat .double (Nat.pow 10 n)

/-- Scales a number down until one power of ten is left to scale by. `steps` bounds the number of
full steps; after three of them every significand has become zero. -/
def scaleFrom (x : Double) (exponent : Int) : Nat → Option Double
  | 0 => some x
  | steps + 1 =>
    if exponent.natAbs ≤ greatestPower then
      if exponent < 0 then some (x.div (tenTo exponent.natAbs))
      else (some (x.mul (tenTo exponent.natAbs))).filter Binary.isFinite
    else if x.code = 0 then some x
    else if 0 ≤ exponent then none
    else scaleFrom (x.div (tenTo greatestPower)) (exponent + greatestPower) steps

/-- A significand scaled by a power of ten, unless that is out of range. -/
def scale (significand : Nat) (exponent : Int) : Option Double :=
  scaleFrom (.ofNat .double significand) exponent 4

/-- The greatest exponent of 32 signed bits. -/
def greatestExponent : Nat := 2147483647

/-- The magnitude of a number with a fraction or an exponent, or with too many digits. -/
def magnitude? (significand : Nat) (places : Int) : Option (Bool × List Char) → Option Double
  | none => scale significand places
  | some (down, digits) =>
    match Text.digits? greatestExponent digits with
    | none => if significand ≠ 0 ∧ ¬down then none else some (.ofNat .double 0)
    | some exponent => scale significand (if down then places - exponent else places + exponent)

/-- The value of a number, unless it is out of range. -/
def value? (n : Numeral) : Option Number :=
  let (whole, taken) := absorb 0 0 n.whole
  let dropped := n.whole.length - taken
  if n.fraction.isEmpty && n.exponent.isNone && dropped == 0 then
    if !n.negative then some (.integer whole)
    else if 0 < whole ∧ whole ≤ 9223372036854775808 then some (.integer (-whole))
    else some (.float (.neg (.ofNat .double whole)))
  else
    let (significand, behind) := absorb whole 0 n.fraction
    (magnitude? significand (dropped - behind) n.exponent).map fun x =>
      .float (if n.negative then x.neg else x)

end Numeral

/-- The text of a double in JSON. A decimal is set out without an exponent while no digit stands
more than 16 places before the point and the first one is at most five places behind it. Halfway
goes to the even digit, and what is not finite is null. -/
def floatText (x : Double) : String :=
  if ¬x.isFinite then "null"
  else
    let d := x.shortest .even
    let places := d.exponent + (Nat.toDigits 10 d.digits).length
    let text := if -5 < places ∧ places ≤ 16 then d.positional else d.scientific
    (if x.negative then "-" else "") ++ String.ofList text
      ++ (if 0 ≤ d.exponent ∧ places ≤ 16 then ".0" else "")

end SpeechService.Json
