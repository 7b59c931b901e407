import SpeechService.Binary.Decimal
import SpeechService.Json.Value
import SpeechService.Text.Base
import SpeechService.Text.Blank

/-!
# Words of JSON5

Lexemes of JSON5: blanks and comments, strings between quotes of both kinds, the names of members,
and numbers. A reader takes its lexeme off the front of the text and gives the rest.
-/

namespace SpeechService.Json5

/-- A character that ends a line. -/
def isLineEnd (c : Char) : Bool :=
  c == '\n' || c == '\r' || c == '\u2028' || c == '\u2029'

/-- A character between lexemes. -/
def isBlank (c : Char) : Bool := c == '\ufeff' || (Text.isBlank c && c != '\u0085')

/-- What is being skipped. -/
inductive Skipping where
  | blanks
  /-- A comment up to the end of its line. -/
  | line
  /-- A comment up to its mark of two characters, of which the first one may just have come. -/
  | block (star : Bool)

/-- The text without the blanks and comments at its front. -/
def skip? : Skipping → List Char → Option (List Char)
  | .block _, [] => none
  | _, [] => some []
  | .line, c :: rest => skip? (if isLineEnd c then .blanks else .line) rest
  | .block star, c :: rest =>
    skip? (if star ∧ c = '/' then .blanks else .block (c == '*')) rest
  | .blanks, '/' :: '/' :: rest => skip? .line rest
  | .blanks, '/' :: '*' :: rest => skip? (.block false) rest
  | .blanks, c :: rest => if isBlank c then skip? .blanks rest else some (c :: rest)

/-! ### Strings and names -/

/-- The character that a letter behind a backslash stands for. Digits stand for none. -/
def escape? : Char → Option Char
  | 'b' => some '\x08'
  | 'f' => some '\x0c'
  | 'n' => some '\n'
  | 'r' => some '\r'
  | 't' => some '\t'
  | 'v' => some '\x0b'
  | '0' => some '\x00'
  | c => if c.isDigit ∨ c = 'x' ∨ c = 'u' then none else some c

/-- The greatest number of four hexadecimal digits. -/
def maxUnit : Nat := 65535

/-- The character of a number in two halves. -/
def paired? (high low : Nat) : Option Char :=
  if 0xD800 ≤ high ∧ high < 0xDC00 ∧ 0xDC00 ≤ low ∧ low < 0xE000 then
    Text.charOf? (0x10000 + (high - 0xD800) * 0x400 + (low - 0xDC00))
  else none

/-- What stands behind `\u`: the character that it names, with the number of characters taken. A
half of a pair needs its other half. -/
def named? : List Char → Option (Char × Nat)
  | a :: b :: c :: d :: rest => do
    let n ← Text.inBase? 16 maxUnit [a, b, c, d]
    match Text.charOf? n, rest with
    | some x, _ => some (x, 4)
    | none, '\\' :: 'u' :: a :: b :: c :: d :: _ => do
      let low ← Text.inBase? 16 maxUnit [a, b, c, d]
      (paired? n low).map (·, 10)
    | none, _ => none
  | _ => none

/-- A string up to its quote. `bound` bounds its length. -/
def string? (quote : Char) : Nat → List Char → Option (List Char × List Char)
  | bound + 1, '\\' :: e :: rest => do
    let (text, taken) ← match e with
      | 'u' => (named? rest).map fun (x, taken) => ([x], taken)
      | 'x' => (Text.scalar? (rest.take 2)).map fun x => ([x], 2)
      | '\r' => some ([], if rest.head? = some '\n' then 1 else 0)
      | _ => if isLineEnd e then some ([], 0) else (escape? e).map fun x => ([x], 0)
    let (more, tail) ← string? quote bound (rest.drop taken)
    some (text ++ more, tail)
  | bound + 1, c :: rest =>
    if c = quote then some ([], rest)
    else if c = '\\' ∨ c = '\n' ∨ c = '\r' then none
    else (string? quote bound rest).map fun (text, tail) => (c :: text, tail)
  | _, _ => none

/-- A character that a name may start with; every other character that is not ASCII counts as a
letter. -/
def startsName (c : Char) : Bool :=
  c.isAlpha || c == '$' || c == '_' || (0x80 ≤ c.toNat && !isBlank c)

/-- A name, as far as it goes; `started` tells whether a part of it has come. `bound` bounds its
length. -/
def name? (started : Bool) : Nat → List Char → Option (List Char × List Char)
  | bound + 1, '\\' :: 'u' :: rest => do
    let (x, taken) ← named? rest
    let (text, tail) ← name? true bound (rest.drop taken)
    some (x :: text, tail)
  | bound + 1, c :: rest =>
    if startsName c ∨ (started ∧ c.isDigit) then
      (name? true bound rest).map fun (text, tail) => (c :: text, tail)
    else if started then some ([], c :: rest)
    else none
  | _, s => if started then some ([], s) else none

/-! ### Numbers -/

/-- The value of a number without its sign and what is behind it. Without a point and an exponent
it is an integer. -/
def unsigned? (negative : Bool) (s : List Char) : Option (Json × List Char) := do
  let before := s.takeWhile Char.isDigit
  let s := s.dropWhile Char.isDigit
  let isPointed := s.head? = some '.'
  let behind := if isPointed then (s.drop 1).takeWhile Char.isDigit else []
  let s := if isPointed then (s.drop 1).dropWhile Char.isDigit else s
  let power := (s.drop 1).takeWhile fun c => c = '+' ∨ c = '-'
  let digits := (s.drop (1 + power.length)).takeWhile Char.isDigit
  let isScaled := (s.head? = some 'e' ∨ s.head? = some 'E') ∧ power.length ≤ 1 ∧ digits ≠ []
  let s := if isScaled then s.drop (1 + power.length + digits.length) else s
  if (before.head? = some '0' ∧ 1 < before.length) ∨ (before ++ behind).isEmpty then none
  else if isPointed ∨ isScaled then do
    let scale := if isScaled then 'e' :: power ++ digits else []
    let d ← Decimal.read? (before ++ '.' :: behind ++ scale)
    let x := d.toDouble negative
    if x.isFinite then some (.float x, s) else none
  else do
    let n ← Text.digits? (if negative then 9223372036854775808 else 9223372036854775807) before
    some (.integer (if negative then -n else n), s)

/-- A number: an integer of 64 signed bits, a finite number, a hexadecimal one of 32 bits without
a sign, infinity, or what is not a number. -/
def number? : List Char → Option (Json × List Char)
  | 'I' :: 'n' :: 'f' :: 'i' :: 'n' :: 'i' :: 't' :: 'y' :: rest =>
    some (.float (.infinite .double false), rest)
  | '-' :: 'I' :: 'n' :: 'f' :: 'i' :: 'n' :: 'i' :: 't' :: 'y' :: rest =>
    some (.float (.infinite .double true), rest)
  | 'N' :: 'a' :: 'N' :: rest | '-' :: 'N' :: 'a' :: 'N' :: rest =>
    some (.float (.notNumber .double), rest)
  | '+' :: rest => unsigned? false rest
  | '-' :: rest => unsigned? true rest
  | '0' :: c :: rest =>
    if c = 'x' ∨ c = 'X' then
      (Text.inBase? 16 Text.max32 (rest.takeWhile Text.isHexDigit)).map fun n =>
        (.integer n, rest.dropWhile Text.isHexDigit)
    else unsigned? false ('0' :: c :: rest)
  | s => unsigned? false s

end SpeechService.Json5
