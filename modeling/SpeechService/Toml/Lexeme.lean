import SpeechService.Binary.Decimal
import SpeechService.Text.Base

/-!
# Words of TOML

Lexemes of TOML: blanks, line ends and comments, strings, and the plain words that stand for
numbers and truth values. A reader takes its lexeme off the front of the text and gives the rest;
`ends?` and `skipLines` are the two ways to get over what stands between lexemes.
-/

namespace SpeechService.Toml

/-- A space or a tab. -/
def isSpace (c : Char) : Bool := c == ' ' || c == '\t'

/-- A control character that may stand nowhere, or only as part of a line end. -/
def isControl (c : Char) : Bool := (c.toNat < 0x20 && c != '\t') || c.toNat == 0x7F

/-- The text without the blanks at its front. -/
def skipSpaces (s : List Char) : List Char := s.dropWhile isSpace

/-- What is behind a line end. -/
def lineEnd? : List Char → Option (List Char)
  | '\n' :: rest => some rest
  | '\r' :: '\n' :: rest => some rest
  | _ => none

/-- What is behind the end of a line on which nothing stands any more but a comment. -/
def ends? (s : List Char) : Option (List Char) :=
  match skipSpaces s with
  | [] => some []
  | '#' :: rest =>
    match rest.dropWhile fun c => !isControl c with
    | [] => some []
    | tail => lineEnd? tail
  | tail => lineEnd? tail

/-- The text without the blanks, line ends and comments at its front. `comment` tells whether a
comment is being read; a control character inside one stays and is no lexeme. -/
def skipLines (comment : Bool) : List Char → List Char
  | [] => []
  | '\n' :: rest => skipLines false rest
  | '\r' :: '\n' :: rest => skipLines false rest
  | c :: rest =>
    if comment then if isControl c then c :: rest else skipLines true rest
    else if isSpace c then skipLines false rest
    else if c = '#' then skipLines true rest
    else c :: rest

/-! ### Strings -/

/-- The character that a letter behind a backslash stands for. -/
def escape? : Char → Option Char
  | 'b' => some '\x08'
  | 't' => some '\t'
  | 'n' => some '\n'
  | 'f' => some '\x0c'
  | 'r' => some '\r'
  | '"' => some '"'
  | '\\' => some '\\'
  | _ => none

/-- A string up to its double quote, with escapes. -/
def basic? : List Char → Option (List Char × List Char)
  | [] => none
  | '"' :: rest => some ([], rest)
  | '\\' :: 'u' :: a :: b :: c :: d :: rest => do
    let x ← Text.scalar? [a, b, c, d]
    let (text, tail) ← basic? rest
    some (x :: text, tail)
  | '\\' :: 'U' :: a :: b :: c :: d :: e :: f :: g :: h :: rest => do
    let x ← Text.scalar? [a, b, c, d, e, f, g, h]
    let (text, tail) ← basic? rest
    some (x :: text, tail)
  | '\\' :: e :: rest => do
    let x ← escape? e
    let (text, tail) ← basic? rest
    some (x :: text, tail)
  | c :: rest =>
    if isControl c ∨ c = '\\' then none
    else (basic? rest).map fun (text, tail) => (c :: text, tail)

/-- A string up to its single quote, as it stands. -/
def literal? : List Char → Option (List Char × List Char)
  | [] => none
  | '\x27' :: rest => some ([], rest)
  | c :: rest =>
    if isControl c then none else (literal? rest).map fun (text, tail) => (c :: text, tail)

/-- What is behind the closing quotes of a string of several lines. Up to two further quotes
belong to the string. -/
def closing? (quote : Char) : List Char → Option (List Char × List Char)
  | a :: b :: c :: rest =>
    if a = quote ∧ b = quote ∧ c = quote then
      match rest.takeWhile (· = quote) with
      | [] => some ([], rest)
      | [q] => some ([q], rest.drop 1)
      | q :: q' :: _ => some ([q, q'], rest.drop 2)
    else none
  | _ => none

/-- What is behind a backslash in a string of several lines. -/
inductive Folding where
  /-- Nothing is skipped. -/
  | plain
  /-- Blanks are skipped; a line end has to follow. -/
  | started
  /-- Blanks and line ends are skipped. -/
  | folding
deriving DecidableEq

/-- A string of several lines up to its double quotes. A backslash at the end of a line joins it
with what comes next. -/
def basicLines? (state : Folding) : List Char → Option (List Char × List Char)
  | [] => none
  | '\n' :: rest =>
    if state = .plain then (basicLines? .plain rest).map fun (text, tail) => ('\n' :: text, tail)
    else basicLines? .folding rest
  | '\r' :: '\n' :: rest =>
    if state = .plain then (basicLines? .plain rest).map fun (text, tail) => ('\n' :: text, tail)
    else basicLines? .folding rest
  | '\\' :: 'u' :: a :: b :: c :: d :: rest => do
    let x ← Text.scalar? [a, b, c, d]
    let (text, tail) ← basicLines? .plain rest
    if state = .started then none else some (x :: text, tail)
  | '\\' :: 'U' :: a :: b :: c :: d :: e :: f :: g :: h :: rest => do
    let x ← Text.scalar? [a, b, c, d, e, f, g, h]
    let (text, tail) ← basicLines? .plain rest
    if state = .started then none else some (x :: text, tail)
  | '\\' :: '\r' :: '\n' :: rest =>
    if state = .started then none else basicLines? .folding rest
  | '\\' :: e :: rest =>
    if state = .started then none
    else if e = '\n' then basicLines? .folding rest
    else if isSpace e then basicLines? .started rest
    else do
      let x ← escape? e
      let (text, tail) ← basicLines? .plain rest
      some (x :: text, tail)
  | c :: rest =>
    if state ≠ .plain ∧ isSpace c then basicLines? state rest
    else if state = .started then none
    else
      match closing? '"' (c :: rest) with
      | some found => some found
      | none =>
        if isControl c then none
        else (basicLines? .plain rest).map fun (text, tail) => (c :: text, tail)

/-- A string of several lines up to its single quotes, as it stands. -/
def literalLines? : List Char → Option (List Char × List Char)
  | [] => none
  | '\n' :: rest => (literalLines? rest).map fun (text, tail) => ('\n' :: text, tail)
  | '\r' :: '\n' :: rest => (literalLines? rest).map fun (text, tail) => ('\n' :: text, tail)
  | c :: rest =>
    match closing? '\x27' (c :: rest) with
    | some found => some found
    | none =>
      if isControl c then none
      else (literalLines? rest).map fun (text, tail) => (c :: text, tail)

/-- The text without one line end at its front. -/
def skipLineEnd (s : List Char) : List Char := (lineEnd? s).getD s

/-- A string of any kind, from its quotes on. -/
def string? : List Char → Option (List Char × List Char)
  | '"' :: '"' :: '"' :: rest => basicLines? .plain (skipLineEnd rest)
  | '"' :: rest => basic? rest
  | '\x27' :: '\x27' :: '\x27' :: rest => literalLines? (skipLineEnd rest)
  | '\x27' :: rest => literal? rest
  | _ => none

/-! ### Numbers -/

/-- The digits of a number without the underscores between them. -/
def ungrouped? (isDigit : Char → Bool) : List Char → Option (List Char)
  | [] => none
  | [c] => if isDigit c then some [c] else none
  | c :: '_' :: rest =>
    if isDigit c then (ungrouped? isDigit rest).map (c :: ·) else none
  | c :: rest => if isDigit c then (ungrouped? isDigit rest).map (c :: ·) else none

/-- The greatest integer. -/
def maxInteger : Nat := 9223372036854775807

/-- An integer of another base, behind its mark. -/
def based? (base : Nat) (s : List Char) : Option Nat := do
  let digits ← ungrouped? (fun c => (Text.hexDigit? c).any (· < base)) s
  Text.inBase? base maxInteger digits

/-- The digits of a decimal integer: no zero stands before another digit. -/
def whole? (s : List Char) : Option (List Char) :=
  if s.head? = some '0' ∧ 1 < s.length then none else ungrouped? Char.isDigit s

/-- The sign of a word, and what is behind it. -/
def sign : List Char → Bool × List Char
  | '-' :: rest => (true, rest)
  | '+' :: rest => (false, rest)
  | s => (false, s)

/-- A decimal integer. -/
def integer? (s : List Char) : Option Int := do
  let (negative, body) := sign s
  let n ← Text.digits? (if negative then maxInteger + 1 else maxInteger) (← whole? body)
  some (if negative then -n else n)

/-- The digits of a number with a fraction or an exponent, without underscores. -/
def pointed? (s : List Char) : Option (List Char) := do
  let mantissa := s.takeWhile fun c => c ≠ 'e' ∧ c ≠ 'E'
  let whole ← whole? (mantissa.takeWhile (· ≠ '.'))
  let fraction ← match mantissa.dropWhile (· ≠ '.') with
    | [] => some []
    | _ :: digits => (ungrouped? Char.isDigit digits).map ('.' :: ·)
  let exponent ← match s.dropWhile fun c => c ≠ 'e' ∧ c ≠ 'E' with
    | [] => some []
    | _ :: power =>
      let mark := power.takeWhile fun c => c = '+' ∨ c = '-'
      if 1 < mark.length then none
      else (ungrouped? Char.isDigit (power.drop mark.length)).map fun d => 'e' :: mark ++ d
  if fraction.isEmpty ∧ exponent.isEmpty then none else some (whole ++ fraction ++ exponent)

/-- A number with a fraction or an exponent, or one of the words for infinity and for what is not
a number. A positive number beyond the range is none. -/
def float? (s : List Char) : Option Double :=
  let (negative, body) := sign s
  if body = ['i', 'n', 'f'] then some (.infinite .double negative)
  else if body = ['n', 'a', 'n'] then some (.notNumber .double)
  else
    ((pointed? body).bind Decimal.read?).bind fun d =>
      let x := d.toDouble negative
      if x.isFinite ∨ negative then some x else none

end SpeechService.Toml
