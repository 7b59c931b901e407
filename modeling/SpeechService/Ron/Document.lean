import SpeechService.Ron.Lexeme

/-!
# RON documents

A RON document spells out a value: a record with named or placed fields, of which the name may be
left out, a list, a table, an optional value, or a value without parts. It is read into the same
kind of value as a JSON text: a record with named fields is an object, one with placed fields an
array, and what holds nothing is null.
-/

namespace SpeechService.Ron

/-- The rest of a text behind a mark. -/
def expect? (mark : Char) : List Char → Option (List Char)
  | c :: rest => if c = mark then some rest else none
  | [] => none

/-- What may follow an item: whether a comma has come, and what is behind it. -/
def comma? (s : List Char) : Option (Bool × List Char) := do
  match ← skip? .blanks s with
  | ',' :: rest => (skip? .blanks rest).map (true, ·)
  | tail => some (false, tail)

/-- The first field of a record has a name. -/
def isNamed? (s : List Char) : Option Bool :=
  match name? s with
  | none => some false
  | some (_, tail) => (skip? .blanks tail).bind fun tail => tail.head?.map (· == ':')

/-- A value without parts at the front, and what is behind it. `bound` bounds the length of
strings. -/
def plain? (bound : Nat) (s : List Char) : Option (Json × List Char) :=
  match s with
  | '"' :: rest =>
    (string? bound rest).map fun (text, tail) => (.string (String.ofList text), tail)
  | 'r' :: rest => (rawString? rest).map fun (text, tail) => (.string (String.ofList text), tail)
  | '\x27' :: rest =>
    (char? rest).map fun (c, tail) => (.string (String.ofList [c]), tail)
  | c :: _ =>
    if c.isDigit ∨ c = '+' ∨ c = '-' ∨ c = '.' then number? s else none
  | [] => none

/-- One of the words that stand for a value, and what is behind it. -/
def wordValue? (s : List Char) : Option (Json × List Char) :=
  [("true", .bool true), ("false", .bool false), ("None", .null),
    ("inf", .float (.infinite .double false)), ("-inf", .float (.infinite .double true)),
    ("NaN", .float (.notNumber .double))].findSome?
    fun (word, value) => (word? word s).map (value, ·)

/-- Values stand within each other up to this depth. -/
def maxDepth : Nat := 128

mutual

/-- The value at the front, and what is behind it. Here and below, nothing is skipped at the front,
`bound`, which stays above three times the length of the text, bounds the depth of the calls, and
`depth` is the number of values that may still stand within each other. -/
def value? (depth : Nat) : Nat → List Char → Option (Json × List Char)
  | 0, _ => none
  | bound + 1, s =>
    match wordValue? s, word? "Some" s with
    | some found, _ => some found
    | none, some rest => do
      let rest ← expect? '(' (← skip? .blanks rest)
      let (value, tail) ← inner? depth bound (← skip? .blanks rest)
      let (_, tail) ← comma? tail
      (expect? ')' tail).map (value, ·)
    | none, none =>
      match s, name? s with
      | '(' :: ')' :: tail, _ => some (.null, tail)
      | '(' :: rest, _ => record? depth bound rest
      | '[' :: rest, _ => do
        let (items, tail) ← items? depth ']' bound (← skip? .blanks rest)
        some (.array items, tail)
      | '\x7b' :: rest, _ => do
        let (members, tail) ← members? depth bound (← skip? .blanks rest)
        some (.object members, tail)
      | _, some (_, tail) => do
        match ← skip? .blanks tail with
        | '(' :: rest => record? depth bound rest
        | tail => some (.null, tail)
      | _, none => plain? bound s

/-- A value within another one. -/
def inner? (depth : Nat) : Nat → List Char → Option (Json × List Char)
  | 0, _ => none
  | bound + 1, s => if depth = 0 then none else value? (depth - 1) bound s

/-- The fields of a record behind its opening bracket, up to its end. -/
def record? (depth : Nat) : Nat → List Char → Option (Json × List Char)
  | 0, _ => none
  | bound + 1, s => do
    let s ← skip? .blanks s
    if ← isNamed? s then do
      let (members, tail) ← fields? depth bound s
      some (.object members, tail)
    else do
      let (items, tail) ← items? depth ')' bound s
      some (.array items, tail)

/-- Values up to a closing mark. -/
def items? (depth : Nat) (mark : Char) : Nat → List Char → Option (List Json × List Char)
  | 0, _ => none
  | bound + 1, s =>
    match expect? mark s with
    | some tail => some ([], tail)
    | none => do
      let (item, tail) ← inner? depth bound s
      let (more, tail) ← comma? tail
      if more then do
        let (items, tail) ← items? depth mark bound tail
        some (item :: items, tail)
      else (expect? mark tail).map ([item], ·)

/-- The named fields of a record up to its end. -/
def fields? (depth : Nat) : Nat → List Char → Option (List (String × Json) × List Char)
  | 0, _ => none
  | _ + 1, ')' :: tail => some ([], tail)
  | bound + 1, s => do
    let (key, tail) ← name? s
    let rest ← expect? ':' (← skip? .blanks tail)
    let (value, tail) ← inner? depth bound (← skip? .blanks rest)
    let member := (String.ofList key, value)
    let (more, tail) ← comma? tail
    if more then do
      let (members, tail) ← fields? depth bound tail
      some (member :: members, tail)
    else (expect? ')' tail).map ([member], ·)

/-- The keys and values of a table up to its end. Every key is a text. -/
def members? (depth : Nat) : Nat → List Char → Option (List (String × Json) × List Char)
  | 0, _ => none
  | _ + 1, '\x7d' :: tail => some ([], tail)
  | bound + 1, s => do
    let (key, tail) ← inner? depth bound s
    let rest ← expect? ':' (← skip? .blanks tail)
    let (value, tail) ← inner? depth bound (← skip? .blanks rest)
    let member ← match key with
      | .string key => some (key, value)
      | _ => none
    let (more, tail) ← comma? tail
    if more then do
      let (members, tail) ← members? depth bound tail
      some (member :: members, tail)
    else (expect? '\x7d' tail).map ([member], ·)

end

/-! ### Attributes -/

/-- The names of what an attribute may switch on. None of it changes what a document says here. -/
def switches : List String :=
  ["unwrap_newtypes", "implicit_some", "unwrap_variant_newtypes"]

/-- The names in an attribute, up to its closing bracket. `bound` bounds their number. -/
def switched? : Nat → List Char → Option (List Char)
  | 0, _ => none
  | bound + 1, s => do
    let (name, tail) ← name? s
    if switches.contains (String.ofList name) then do
      let (more, tail) ← comma? tail
      if more ∧ tail.head?.any isNameChar then switched? bound tail
      else expect? ')' tail
    else none

/-- What is behind a lexeme and the blanks that follow it. -/
def behind? (lexeme : String) (s : List Char) : Option (List Char) :=
  (lexeme.toList.isPrefixOf? s).bind (skip? .blanks)

/-- The text without the attributes at its front. `bound` bounds their number. -/
def skipAttributes? : Nat → List Char → Option (List Char)
  | bound + 1, '#' :: rest => do
    let s ← ["!", "[", "enable", "("].foldlM (fun s lexeme => behind? lexeme s)
      (← skip? .blanks rest)
    let s ← skip? .blanks (← switched? bound s)
    skipAttributes? bound (← behind? "]" s)
  | _, s => some s

/-- Reads a text that is one value and nothing else. -/
def read? (text : String) : Option Json := do
  let s ← skip? .blanks text.toList
  let s ← skipAttributes? s.length s
  let (value, tail) ← value? maxDepth (3 * s.length + 3) s
  match ← skip? .blanks tail with
  | [] => some value
  | _ => none

end SpeechService.Ron
