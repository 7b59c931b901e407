/-!
# Integers in text

Decimal integers are read with an optional plus sign and any number of leading zeros, and refused
above a limit; reading stops where the limit is passed. `Text.natural?` takes no minus sign.
-/

namespace SpeechService.Text

/-- The value of a decimal digit. -/
def digit? (c : Char) : Option Nat :=
  if '0' ≤ c ∧ c ≤ '9' then some (c.toNat - '0'.toNat) else none

/-- The value of decimal digits that follow a number already read, as long as it does not pass
`limit`. -/
def digitsFrom? (limit start : Nat) : List Char → Option Nat
  | [] => some start
  | c :: rest => do
    let d ← digit? c
    if limit < 10 * start + d then none else digitsFrom? limit (10 * start + d) rest

/-- The value of one or more decimal digits, up to `limit`. -/
def digits? (limit : Nat) : List Char → Option Nat
  | [] => none
  | cs => digitsFrom? limit 0 cs

/-- A natural number up to `limit`: digits after at most one plus sign. -/
def natural? (limit : Nat) : List Char → Option Nat
  | '+' :: rest => digits? limit rest
  | s => digits? limit s

/-- The greatest integer of 16 unsigned bits. -/
def max16 : Nat := 65535

/-- The greatest integer of 32 unsigned bits. -/
def max32 : Nat := 4294967295

/-- The greatest integer of 64 unsigned bits. -/
def max64 : Nat := 18446744073709551615

/-- A natural number as decimal digits without leading zeros. -/
def ofNat (n : Nat) : String := String.ofList (Nat.toDigits 10 n)

/-- An integer as decimal digits, after a minus sign if it is below zero. -/
def ofInt : Int → String
  | .ofNat n => ofNat n
  | .negSucc n => "-" ++ ofNat (n + 1)

end SpeechService.Text
