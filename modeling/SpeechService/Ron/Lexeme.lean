import SpeechService.Binary.Decimal
import SpeechService.Json.Value
import SpeechService.Text.Base

/-!
# Words of RON

Lexemes of RON: blanks and comments, of which those in block form stand within each other, names,
strings with and without escapes, single characters, and numbers. A reader takes its lexeme off the
front of the text and gives the rest.
-/

namespace SpeechService.Ron

/-- A character between lexemes. -/
def isBlank (c : Char) : Bool := c == ' ' || c == '\t' || c == '\n' || c == '\r'

/-- What is being skipped. -/
inductive Skipping where
  | blanks
  /-- A comment up to the end of its line. -/
  | line
  /-- So many comments within each other, and the character that may begin a mark of two. -/
  | block (depth : Nat) (last : Option Char)

/-- The text without the blanks and comments at its front. -/
def skip? : Skipping → List Char → Option (List Char)
  | .block _ _, [] => none
  | _, [] => some []
  | .line, c :: rest => skip? (if c = '\n' then .blanks else .line) rest
  | .block depth last, c :: rest =>
    if last = some '/' ∧ c = '*' then skip? (.block (depth + 1) none) rest
    else if last = some '*' ∧ c = '/' then
      skip? (if depth = 1 then .blanks else .block (depth - 1) none) rest
    else skip? (.block depth (some c)) rest
  | .blanks, '/' :: '/' :: rest => skip? .line rest
  | .blanks, '/' :: '*' :: rest => skip? (.block 1 none) rest
  | .blanks, c :: rest => if isBlank c then skip? .blanks rest else some (c :: rest)

/-! ### Names -/

/-- A character that a name may start with. -/
def startsName (c : Char) : Bool := c.isAlpha || c == '_'

/-- A character of a name. -/
def isNameChar (c : Char) : Bool := c.isAlphanum || c == '_'

/-- A character of a name that is marked as one. -/
def isMarkedChar (c : Char) : Bool := isNameChar c || c == '.' || c == '+' || c == '-'

/-- The name at the front, and what is behind it. -/
def name? : List Char → Option (List Char × List Char)
  | 'r' :: '"' :: _ => none
  | 'r' :: '#' :: rest =>
    if (rest.takeWhile isMarkedChar).isEmpty then none
    else some (rest.takeWhile isMarkedChar, rest.dropWhile isMarkedChar)
  | s =>
    if s.head?.any startsName then some (s.takeWhile isNameChar, s.dropWhile isNameChar) else none

/-- What is behind a word that ends where it ends. -/
def word? (word : String) (s : List Char) : Option (List Char) :=
  (word.toList.isPrefixOf? s).filter fun rest => !rest.head?.any isNameChar

/-! ### Strings -/

/-- What stands behind a backslash: the character that it stands for, and the rest. -/
def escape? : List Char → Option (Char × List Char)
  | '\x27' :: rest => some ('\x27', rest)
  | '"' :: rest => some ('"', rest)
  | '\\' :: rest => some ('\\', rest)
  | 'n' :: rest => some ('\n', rest)
  | 'r' :: rest => some ('\r', rest)
  | 't' :: rest => some ('\t', rest)
  | '0' :: rest => some ('\x00', rest)
  | 'x' :: a :: b :: rest => (Text.scalar? [a, b]).map (·, rest)
  | 'u' :: '\x7b' :: rest =>
    let digits := rest.takeWhile Text.isHexDigit
    match rest.drop digits.length with
    | '\x7d' :: tail =>
      if digits.length ≤ 6 then (Text.scalar? digits).map (·, tail) else none
    | _ => none
  | _ => none

/-- A string up to its quote. `bound` bounds its length. -/
def string? : Nat → List Char → Option (List Char × List Char)
  | bound + 1, c :: rest =>
    if c = '"' then some ([], rest)
    else do
      let (x, rest) ← if c = '\\' then escape? rest else some (c, rest)
      let (text, tail) ← string? bound rest
      some (x :: text, tail)
  | _, _ => none

/-- A string as it stands, up to its closing mark. -/
def untilMark? (mark : List Char) : List Char → Option (List Char × List Char)
  | [] => none
  | c :: rest =>
    match mark.isPrefixOf? (c :: rest) with
    | some tail => some ([], tail)
    | none => (untilMark? mark rest).map fun (text, tail) => (c :: text, tail)

/-- A string without escapes, behind its letter: its quotes stand between as many hashes as there
are in front. -/
def rawString? (s : List Char) : Option (List Char × List Char) :=
  let hashes := s.takeWhile (· = '#')
  match s.drop hashes.length with
  | '"' :: rest => untilMark? ('"' :: hashes) rest
  | _ => none

/-- A character up to its quote. -/
def char? : List Char → Option (Char × List Char)
  | '\\' :: rest =>
    match escape? rest with
    | some (c, '\x27' :: tail) => some (c, tail)
    | _ => none
  | c :: '\x27' :: tail => if c = '\x27' then none else some (c, tail)
  | _ => none

/-! ### Numbers -/

/-- A character of an integer of any base. -/
def isIntegerChar (c : Char) : Bool := Text.isHexDigit c || c == '_'

/-- A character of a number with a point or an exponent. -/
def isFloatChar (c : Char) : Bool :=
  c.isDigit || c == 'e' || c == 'E' || c == '.' || c == '+' || c == '-' || c == '_'

/-- The base of an integer, and the text behind the mark of the base. -/
def base : List Char → Nat × List Char
  | '0' :: 'x' :: rest => (16, rest)
  | '0' :: 'b' :: rest => (2, rest)
  | '0' :: 'o' :: rest => (8, rest)
  | s => (10, s)

/-- An integer without its sign, with underscores behind its first digit, and what is behind it. -/
def integer? (limit : Nat) (s : List Char) : Option (Nat × List Char) :=
  let (base, s) := base s
  let digits := s.takeWhile isIntegerChar
  if digits.head? = some '_' then none
  else (Text.inBase? base limit (digits.filter (· ≠ '_'))).map (·, s.dropWhile isIntegerChar)

/-- A number with its sign as a number of 64 bits, and what is behind it. -/
def float? (s : List Char) : Option (Double × List Char) :=
  (Binary.read? (s.takeWhile isFloatChar)).map (·, s.dropWhile isFloatChar)

/-- A number: an integer of 64 bits, or else a number of 64 bits with a point. -/
def number? (s : List Char) : Option (Json × List Char) :=
  let isSigned := s.head? = some '-' ∨ s.head? = some '+'
  let negative := s.head? = some '-'
  let body := if isSigned then s.drop 1 else s
  let limit := if negative then 9223372036854775808
    else if isSigned then 9223372036854775807 else Text.max64
  let isPointed := (body.takeWhile isIntegerChar).length < (body.takeWhile isFloatChar).length
  match if isPointed then none else integer? limit body with
  | some (n, tail) => some (.integer (if negative then -n else n), tail)
  | none => (float? s).map fun (x, tail) => (.float x, tail)

end SpeechService.Ron
