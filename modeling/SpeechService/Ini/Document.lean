import SpeechService.Json.Value
import SpeechService.Text.Base
import SpeechService.Text.Blank

/-!
# INI documents

An INI document consists of properties, a key and a text each, and of the names of sections. The
properties before the first section belong to the document itself, those behind it to the last
section named. A comment takes up a whole line. All values are texts: a text ends with its line,
unless it goes on between quotes.

A document is read into an object in which every section is an object. Sections and keys that
are repeated stand there as often as they are given.
-/

namespace SpeechService.Ini

/-- A character that ends a line. -/
def isLineEnd (c : Char) : Bool := c == '\n' || c == '\r'

/-- A character that ends a key. -/
def endsKey (c : Char) : Bool := c == '=' || c == ':'

/-- The character that a letter behind a backslash stands for. A line end stands for nothing. -/
def escape? : Char → Option Char
  | '0' => some '\x00'
  | 'a' => some '\x07'
  | 'b' => some '\x08'
  | 't' => some '\t'
  | 'r' => some '\r'
  | 'n' => some '\n'
  | '\n' => none
  | c => some c

/-- The text up to a character that ends it, and what is left from there on. `open` texts may as
well end with the document. -/
def until? (ends : Char → Bool) (isOpen : Bool) : List Char → Option (List Char × List Char)
  | [] => if isOpen then some ([], []) else none
  | '\\' :: 'x' :: a :: b :: c :: d :: rest => do
    let x ← Text.scalar? [a, b, c, d]
    let (text, tail) ← until? ends isOpen rest
    some (x :: text, tail)
  | '\\' :: e :: rest =>
    if e = 'x' then none
    else (until? ends isOpen rest).map fun (text, tail) => ((escape? e).toList ++ text, tail)
  | c :: rest =>
    if ends c then some ([], c :: rest)
    else if c = '\\' then none
    else (until? ends isOpen rest).map fun (text, tail) => (c :: text, tail)

/-- A value: texts between quotes, and at last what stands in the line without quotes. `bound`
bounds the number of texts between quotes. -/
def value? (afterQuotes : Bool) : Nat → List Char → Option (List Char × List Char)
  | bound + 1, '"' :: rest => do
    let (text, tail) ← until? (· == '"') false rest
    let (more, tail) ← value? true bound (tail.drop 1)
    some (text ++ more, tail)
  | bound + 1, '\x27' :: rest => do
    let (text, tail) ← until? (· == '\x27') false rest
    let (more, tail) ← value? true bound (tail.drop 1)
    some (text ++ more, tail)
  | _, s =>
    (until? isLineEnd true s).map fun (text, tail) =>
      let text := (text.reverse.dropWhile Text.isBlank).reverse
      (if afterQuotes then text else text.dropWhile Text.isBlank, tail)

/-- What a document is made of. -/
inductive Entry where
  /-- The name of a section. -/
  | header (name : String)
  | property (key value : String)

/-- The trimmed text of characters. -/
def trimmed (s : List Char) : String := String.ofList (Text.trimList s)

/-- The entries of a document. Blanks at the front are left out; `fresh` tells whether a line
starts here. `bound` bounds the number of entries and blanks. -/
def entries? (fresh : Bool) : Nat → List Char → Option (List Entry)
  | _, [] => some []
  | 0, _ => none
  | bound + 1, c :: rest =>
    if Text.isBlank c then entries? (c == '\n') bound rest
    else if c = ';' ∨ c = '#' then
      if fresh then entries? true bound ((rest.dropWhile (· ≠ '\n')).drop 1) else none
    else if c = '[' then do
      let (name, tail) ← until? (· == ']') false rest
      let entries ← entries? false bound (tail.drop 1)
      some (.header (trimmed name) :: entries)
    else do
      let (key, tail) ← until? endsKey false (c :: rest)
      let key := trimmed key
      if key.isEmpty then none
      else
        let behind := (tail.drop 1).dropWhile fun c => Text.isBlank c && !isLineEnd c
        let (value, tail) ← value? false behind.length behind
        let entries ← entries? false bound tail
        some (.property key (String.ofList value) :: entries)

/-- The properties at the front, as members. -/
def properties : List Entry → List (String × Json)
  | .property key value :: rest => (key, .string value) :: properties rest
  | _ => []

/-- The sections, each with the properties that follow its name. -/
def sections : List Entry → List (String × Json)
  | [] => []
  | .header name :: rest => (name, .object (properties rest)) :: sections rest
  | .property _ _ :: rest => sections rest

/-- Reads a document. -/
def read? (text : String) : Option Json :=
  let s := text.toList
  (entries? true s.length s).map fun entries => .object (properties entries ++ sections entries)

end SpeechService.Ini
