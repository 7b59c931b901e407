import SpeechService.Json5.Lexeme

/-!
# JSON5 documents

A JSON5 document is a JSON text that is easier to write: there are comments, the names of members
need no quotes, a last comma does no harm, and numbers have further forms. It is read into the
same kind of value.
-/

namespace SpeechService.Json5

/-- The name of a member, and what is behind it. `bound` bounds its length. -/
def key? (bound : Nat) : List Char → Option (List Char × List Char)
  | '"' :: rest => string? '"' bound rest
  | '\x27' :: rest => string? '\x27' bound rest
  | s => name? false bound s

mutual

/-- The value at the front, and what is behind it. Here and below, nothing is skipped at the front,
and `bound`, which stays above twice the length of the text, bounds the depth of the calls. -/
def value? : Nat → List Char → Option (Json × List Char)
  | 0, _ => none
  | bound + 1, s =>
    match s with
    | '[' :: rest => do
      let (items, tail) ← items? bound (← skip? .blanks rest)
      some (.array items, tail)
    | '\x7b' :: rest => do
      let (members, tail) ← members? bound (← skip? .blanks rest)
      some (.object members, tail)
    | '"' :: rest =>
      (string? '"' bound rest).map fun (text, tail) => (.string (String.ofList text), tail)
    | '\x27' :: rest =>
      (string? '\x27' bound rest).map fun (text, tail) => (.string (String.ofList text), tail)
    | 'n' :: 'u' :: 'l' :: 'l' :: tail => some (.null, tail)
    | 't' :: 'r' :: 'u' :: 'e' :: tail => some (.bool true, tail)
    | 'f' :: 'a' :: 'l' :: 's' :: 'e' :: tail => some (.bool false, tail)
    | _ => number? s

/-- The items of an array up to its end. -/
def items? : Nat → List Char → Option (List Json × List Char)
  | 0, _ => none
  | _ + 1, ']' :: tail => some ([], tail)
  | bound + 1, s => do
    let (item, tail) ← value? bound s
    match ← skip? .blanks tail with
    | ',' :: rest =>
      let (items, tail) ← items? bound (← skip? .blanks rest)
      some (item :: items, tail)
    | ']' :: tail => some ([item], tail)
    | _ => none

/-- The members of an object up to its end. -/
def members? : Nat → List Char → Option (List (String × Json) × List Char)
  | 0, _ => none
  | _ + 1, '\x7d' :: tail => some ([], tail)
  | bound + 1, s => do
    let (key, tail) ← key? bound s
    match ← skip? .blanks tail with
    | ':' :: rest =>
      let (value, tail) ← value? bound (← skip? .blanks rest)
      match ← skip? .blanks tail with
      | ',' :: rest =>
        let (members, tail) ← members? bound (← skip? .blanks rest)
        some ((String.ofList key, value) :: members, tail)
      | '\x7d' :: tail => some ([(String.ofList key, value)], tail)
      | _ => none
    | _ => none

end

/-- Reads a text that is one value and nothing else. -/
def read? (text : String) : Option Json := do
  let s ← skip? .blanks text.toList
  let (value, tail) ← value? (2 * s.length + 2) s
  match ← skip? .blanks tail with
  | [] => some value
  | _ => none

end SpeechService.Json5
