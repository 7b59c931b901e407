/-!
# Digits of other bases

Natural numbers in bases up to sixteen, refused above a limit, and characters that are named by
their number.
-/

namespace SpeechService.Text

/-- The value of a hexadecimal digit. -/
def hexDigit? (c : Char) : Option Nat :=
  if c.isDigit then some (c.toNat - '0'.toNat)
  else if 'a' ≤ c ∧ c ≤ 'f' then some (c.toNat - 'a'.toNat + 10)
  else if 'A' ≤ c ∧ c ≤ 'F' then some (c.toNat - 'A'.toNat + 10)
  else none

/-- A hexadecimal digit. -/
def isHexDigit (c : Char) : Bool := (hexDigit? c).isSome

/-- The value of digits that follow a number already read, each at most `base - 1`, as long as it
does not pass `limit`. -/
def inBaseFrom? (base limit start : Nat) : List Char → Option Nat
  | [] => some start
  | c :: rest => do
    let d ← (hexDigit? c).filter (· < base)
    if limit < base * start + d then none else inBaseFrom? base limit (base * start + d) rest

/-- The value of one or more digits in a base, up to `limit`. -/
def inBase? (base limit : Nat) : List Char → Option Nat
  | [] => none
  | digits => inBaseFrom? base limit 0 digits

/-- The greatest number of a character. -/
def maxScalar : Nat := 1114111

/-- The character with a number, if it is a scalar value. -/
def charOf? (n : Nat) : Option Char := if n.isValidChar then some (Char.ofNat n) else none

/-- The character with a number in hexadecimal. -/
def scalar? (digits : List Char) : Option Char := (inBase? 16 maxScalar digits).bind charOf?

end SpeechService.Text
