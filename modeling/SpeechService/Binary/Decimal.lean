import SpeechService.Binary.Number
import SpeechService.Text.Integer

/-!
# Decimal text of numbers

A decimal is a natural number scaled by a power of ten. Reading a decimal rounds its exact value
once. Writing a number takes the fewest digits that read back to it, and of those the nearest to
its exact value; a number may lie halfway between two of them, and then the form that is written
decides. The digits are set out positionally, or with an exponent.

`Double.read?` and `Double.render` are the two directions for texts.
-/

namespace SpeechService

open SpeechService.Binary (Format)

/-- A **decimal**: `digits` scaled by ten to the power of `exponent`. -/
structure Decimal where
  digits : Nat
  exponent : Int
deriving DecidableEq, Repr

namespace Decimal

/-- Beyond this many places before or behind the point every decimal is infinite or zero as a
number of 64 bits. -/
def horizon : Int := 400

/-- The code of the number of 64 bits nearest to a decimal. -/
def code (d : Decimal) : Nat :=
  let places := d.exponent + (Nat.toDigits 10 d.digits).length
  if d.digits = 0 ∨ places < -horizon then 0
  else if horizon < places then Format.double.infinity
  else Format.double.nearest (d.digits * Nat.pow 10 d.exponent.toNat)
    (Nat.pow 10 (-d.exponent).toNat)

theorem code_lt_codes (d : Decimal) : d.code < Format.double.codes := by
  unfold code
  dsimp only
  split
  · exact Nat.two_pow_pos _
  · split
    · exact Format.infinity_lt_codes _
    · exact Format.nearest_lt_codes _ _ _

/-- The number of 64 bits nearest to a signed decimal. -/
def toDouble (negative : Bool) (d : Decimal) : Double := ⟨negative, d.code, d.code_lt_codes⟩

/-- The same decimal without zeros at the end of its digits. -/
def reduced (d : Decimal) : Decimal :=
  let zeros := ((Nat.toDigits 10 d.digits).reverse.takeWhile (· == '0')).length
  ⟨d.digits / Nat.pow 10 zeros, d.exponent + zeros⟩

/-- The digits of a decimal set out with a point where one is needed, never with an exponent. -/
def positional (d : Decimal) : List Char :=
  let digits := Nat.toDigits 10 d.digits
  if 0 ≤ d.exponent then digits ++ List.replicate d.exponent.toNat '0'
  else
    let behind := (-d.exponent).toNat
    if behind < digits.length then
      digits.take (digits.length - behind) ++ '.' :: digits.drop (digits.length - behind)
    else '0' :: '.' :: List.replicate (behind - digits.length) '0' ++ digits

/-- The digits of a decimal with a point behind the first one, if there are more, and an exponent
with its sign. -/
def scientific (d : Decimal) : List Char :=
  let digits := Nat.toDigits 10 d.digits
  let behind := digits.drop 1
  let exponent := d.exponent + behind.length
  digits.take 1 ++ (if behind.isEmpty then [] else '.' :: behind)
    ++ 'e' :: (if exponent < 0 then '-' else '+') :: Nat.toDigits 10 exponent.natAbs

/-- An exponent is followed up to this size: from there on its further digits are dropped. No
number is so long that it would matter, unless it is spelled with as many zeros. -/
def exponentReach : Nat := 65536

/-- The value of the digits of an exponent, followed up to its reach. -/
def exponentFrom? (start : Nat) : List Char → Option Nat
  | [] => some start
  | c :: rest => do
    let d ← Text.digit? c
    exponentFrom? (if start < exponentReach then 10 * start + d else start) rest

/-- The value of one or more digits of an exponent. -/
def exponentDigits? : List Char → Option Nat
  | [] => none
  | cs => exponentFrom? 0 cs

/-- Reads an exponent: an optional sign and at least one digit. -/
def exponent? : List Char → Option Int
  | '+' :: rest => (exponentDigits? rest).map Int.ofNat
  | '-' :: rest => (exponentDigits? rest).map fun n => -Int.ofNat n
  | rest => (exponentDigits? rest).map Int.ofNat

/-- So many digits tell all numbers of 64 bits and all places halfway between two of them apart:
none of these has more than 767 digits. -/
def tellingDigits : Nat := 800

/-- The decimal with these digits. Digits beyond the telling ones only lift it a little above what
comes before them, unless they are all zero. -/
def ofDigits (digits : List Char) (exponent : Int) : Decimal :=
  let digits := digits.dropWhile (· == '0')
  let rest := digits.drop tellingDigits
  let lift := if rest.all (· == '0') then '0' else '1'
  let telling := if rest.isEmpty then digits else digits.take tellingDigits ++ [lift]
  let value := telling.foldl (fun n c => 10 * n + (c.toNat - '0'.toNat)) 0
  ⟨value, exponent + (digits.length - telling.length : Nat)⟩

/-- Reads digits with an optional point and an optional exponent; at least one digit has to stand
before or behind the point. -/
def read? (s : List Char) : Option Decimal := do
  let mantissa := s.takeWhile fun c => c ≠ 'e' ∧ c ≠ 'E'
  let exponent ← match s.dropWhile fun c => c ≠ 'e' ∧ c ≠ 'E' with
    | [] => some 0
    | _ :: rest => exponent? rest
  let before := mantissa.takeWhile (· ≠ '.')
  let behind := (mantissa.dropWhile (· ≠ '.')).drop 1
  if (before ++ behind).isEmpty ∨ ¬(before ++ behind).all Char.isDigit then none
  else some (ofDigits (before ++ behind) (exponent - behind.length))

end Decimal

namespace Binary

/-- Which of two decimals stands for a number **halfway** between them. -/
inductive Halfway where
  /-- The larger one. -/
  | up
  /-- The one that ends in an even digit. -/
  | even
deriving DecidableEq, Repr

/-- The smaller decimal stands for a number halfway between it and the next one. -/
def Halfway.isDown (h : Halfway) (below : Nat) : Bool :=
  match h with
  | .up => false
  | .even => below % 2 = 0

/-- The two decimals next to `num / den` with the given exponent, the nearer one first. -/
def neighbours (h : Halfway) (num den : Nat) (exponent : Int) : List Decimal :=
  let num := num * Nat.pow 10 (-exponent).toNat
  let den := den * Nat.pow 10 exponent.toNat
  let below : Decimal := ⟨num / den, exponent⟩
  let above : Decimal := ⟨num / den + 1, exponent⟩
  if 2 * (num % den) < den ∨ (2 * (num % den) = den ∧ h.isDown below.digits) then [below, above]
  else [above, below]

/-- The decimal exponent of the leading digit of `num / den`. -/
def leadingExponent (num den : Nat) : Int :=
  let guess : Int := (Nat.toDigits 10 num).length - (Nat.toDigits 10 den).length
  if den * Nat.pow 10 guess.toNat ≤ num * Nat.pow 10 (-guess).toNat then guess else guess - 1

/-- The decimals that are tried for a number, those with fewer digits first; the last one is its
exact value. -/
def candidates (h : Halfway) (x : Double) : List Decimal :=
  let den := Nat.pow 2 Format.double.depth
  let leading := leadingExponent x.units den
  ((List.range 17).flatMap fun n : Nat =>
      (neighbours h x.units den (leading - (n : Int))).map Decimal.reduced)
    ++ [⟨x.units * Nat.pow 5 Format.double.depth, -Format.double.depth⟩]

/-- The decimal with the fewest digits that reads back to the magnitude of a finite number, of
equally short ones the nearest. -/
def shortest (h : Halfway) (x : Double) : Decimal :=
  if x.code = 0 then ⟨0, 0⟩
  else ((candidates h x).find? fun d => d.code == x.code).getD ⟨0, 0⟩

/-- The text of a number: the shortest digits that read back, without an exponent, and without a
point on whole numbers; halfway goes up. -/
def render (x : Double) : String :=
  if x.isNaN then "NaN"
  else
    (if x.negative then "-" else "")
      ++ (if x.isFinite then String.ofList (x.shortest .up).positional else "inf")

/-- The text of a number; whole numbers show a point as well. -/
def renderPointed (x : Double) : String :=
  let s := x.render
  if s.toList.contains '.' ∨ ¬x.isFinite then s else s ++ ".0"

/-- Reads a number after its sign. The words are accepted in any case. -/
def readUnsigned? (negative : Bool) (s : List Char) : Option Double :=
  let word := s.map Char.toLower
  if word = "inf".toList ∨ word = "infinity".toList then some (infinite .double negative)
  else if word = "nan".toList then some (notNumber .double)
  else (Decimal.read? s).map (Decimal.toDouble negative)

/-- Reads a number: an optional sign, then a decimal or one of the words for infinity and for
what is not a number. -/
def read? : List Char → Option Double
  | '+' :: rest => readUnsigned? false rest
  | '-' :: rest => readUnsigned? true rest
  | rest => readUnsigned? false rest

end Binary

end SpeechService
