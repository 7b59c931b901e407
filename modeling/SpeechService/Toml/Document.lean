import SpeechService.Json.Value
import SpeechService.Toml.DateTime
import SpeechService.Toml.Lexeme

/-!
# TOML documents

A TOML document is read into the same kind of value as a JSON text. Its lines are taken one after
another: a header opens a table, and an assignment puts a value into the open table, at a key that
may lead through further tables. A key is given at most once, and a table is opened at most once;
`Node.Kind` keeps what is needed to tell.

`Toml.read?` refuses what does not follow the grammar, and repeated keys and tables.
-/

namespace SpeechService.Toml

/-! ### Tables under construction -/

/-- How a table came to be there. -/
inductive Kind where
  /-- By the header of a table inside it. -/
  | implied
  /-- By a key with several parts. -/
  | dotted
  /-- By its own header, or as a whole. -/
  | stated
deriving DecidableEq

/-- A **node** of a document under construction. -/
inductive Node where
  /-- A value that nothing can be added to. -/
  | value (value : Json)
  | table (kind : Kind) (members : List (String × Node))
  /-- A list of tables, the last one first. -/
  | tables (elements : List (List (String × Node)))

/-- The members of a table. -/
abbrev Members := List (String × Node)

/-- The members with another node at a key that is there. -/
def replace (key : String) (node : Node) (members : Members) : Members :=
  members.map fun (k, n) => if k = key then (k, node) else (k, n)

/-- Changes the table at a path. Tables that are not there yet are made on the way; `dotted` tells
whether the path is part of a key, which does not lead through tables with a header of their
own. -/
def update (dotted : Bool) (change : Kind → Members → Option (Kind × Members)) :
    List String → Kind → Members → Option (Kind × Members)
  | [], kind, members => change kind members
  | key :: path, kind, members =>
    match members.lookup key with
    | none =>
      (update dotted change path (if dotted then .dotted else .implied) []).map fun (k, inner) =>
        (kind, members ++ [(key, .table k inner)])
    | some (.table k inner) =>
      if dotted ∧ k = .stated then none
      else
        (update dotted change path k inner).map fun (k, inner) =>
          (kind, replace key (.table k inner) members)
    | some (.tables (last :: earlier)) =>
      (update dotted change path .stated last).map fun (_, inner) =>
        (kind, replace key (.tables (inner :: earlier)) members)
    | some (.tables []) | some (.value _) => none

/-- Puts a value into the table of a key. -/
def assign (path : List String) (key : String) (value : Json) :
    Kind → Members → Option (Kind × Members) :=
  update true (fun kind members =>
    if (kind = .dotted) ≠ (path ≠ []) then none
    else if (members.lookup key).isSome then none
    else some (kind, members ++ [(key, .value value)])) path

/-- Opens a table by its header. -/
def openTable : Kind → Members → Option (Kind × Members)
  | .implied, members => some (.stated, members)
  | _, _ => none

/-- Appends a table to the list of tables with a key. -/
def openElement (key : String) (kind : Kind) (members : Members) : Option (Kind × Members) :=
  match members.lookup key with
  | none => some (kind, members ++ [(key, .tables [[]])])
  | some (.tables elements) => some (kind, replace key (.tables ([] :: elements)) members)
  | _ => none

mutual

/-- The value of a node. -/
def Node.toJson : Node → Json
  | .value v => v
  | .table _ members => .object (membersToJson members)
  | .tables elements => .array (elementsToJson elements).reverse

/-- The values of members. -/
def membersToJson : List (String × Node) → List (String × Json)
  | [] => []
  | (key, node) :: rest => (key, node.toJson) :: membersToJson rest

/-- The values of a list of tables. -/
def elementsToJson : List (List (String × Node)) → List Json
  | [] => []
  | members :: rest => .object (membersToJson members) :: elementsToJson rest

end

/-! ### Keys and values -/

/-- The characters of a key without quotes. -/
def isKeyChar (c : Char) : Bool := c.isAlphanum || c == '_' || c == '-'

/-- One part of a key. -/
def keyPart? : List Char → Option (String × List Char)
  | '"' :: rest => (basic? rest).map fun (text, tail) => (String.ofList text, tail)
  | '\x27' :: rest => (literal? rest).map fun (text, tail) => (String.ofList text, tail)
  | s =>
    if (s.takeWhile isKeyChar).isEmpty then none
    else some (String.ofList (s.takeWhile isKeyChar), s.dropWhile isKeyChar)

/-- The parts of a key and what is behind it, blanks left out. `bound` bounds their number. -/
def keyParts? : Nat → List Char → Option (List String × List Char)
  | 0, _ => none
  | bound + 1, s => do
    let (part, tail) ← keyPart? s
    match skipSpaces tail with
    | '.' :: rest =>
      let (parts, tail) ← keyParts? bound (skipSpaces rest)
      some (part :: parts, tail)
    | tail => some ([part], tail)

/-- A key has at most so many parts, and brackets stand within each other up to this depth. -/
def maxDepth : Nat := 79

/-- A key with one or more parts. -/
def key? (s : List Char) : Option (List String × List Char) := keyParts? maxDepth s

/-- The characters that end a plain word. -/
def endsWord (c : Char) : Bool :=
  isSpace c || isControl c || c == ',' || c == ']' || c == '\x7d' || c == '#'

/-- The value of a plain word. -/
def word? (s : List Char) : Option Json :=
  match s with
  | ['t', 'r', 'u', 'e'] => some (.bool true)
  | ['f', 'a', 'l', 's', 'e'] => some (.bool false)
  | '0' :: 'x' :: digits => (based? 16 digits).map fun n => .integer n
  | '0' :: 'o' :: digits => (based? 8 digits).map fun n => .integer n
  | '0' :: 'b' :: digits => (based? 2 digits).map fun n => .integer n
  | _ => ((integer? s).map Json.integer).or ((float? s).map Json.float)

/-- Puts the value of a key with one or more parts into a table. -/
def assignKey (path : List String) (value : Json) (kind : Kind) (members : Members) :
    Option (Kind × Members) :=
  path.getLast?.bind fun key => assign path.dropLast key value kind members

/-- The members of an inline table. -/
def inlineMembers? (members : Members) : List (List String × Json) → Option Members
  | [] => some members
  | (path, value) :: rest =>
    (assignKey path value .stated members).bind fun r => inlineMembers? r.2 rest

/-- The key that marks a date or a time: a table with this key in front stands for the date or
the time that the key's text spells. -/
def dateTimeKey : String := "$__toml_private_datetime"

/-- The value of a date or a time. -/
def ofDateTime (d : DateTime) : Json :=
  .object [(dateTimeKey, .string (String.ofList d.render))]

/-- The value without parts at the front, and what is behind it. -/
def plain? (s : List Char) : Option (Json × List Char) :=
  match s with
  | '"' :: _ | '\x27' :: _ =>
    (string? s).map fun (text, tail) => (.string (String.ofList text), tail)
  | _ =>
    match dateTime? .document s with
    | some (d, tail) => some (ofDateTime d, tail)
    | none =>
      (word? (s.takeWhile fun c => !endsWord c)).map fun v =>
        (v, s.dropWhile fun c => !endsWord c)

mutual

/-- The value at the front, and what is behind it. Here and below, `bound` bounds the depth of
the calls, and `depth` is the number of brackets that may still be opened. -/
def valueWithin? (depth : Nat) : Nat → List Char → Option (Json × List Char)
  | 0, _ => none
  | bound + 1, '[' :: rest =>
    if depth = 0 then none
    else
      (itemsWithin? (depth - 1) bound (skipLines false rest)).map fun (items, tail) =>
        (.array items, tail)
  | bound + 1, '\x7b' :: rest =>
    if depth = 0 then none
    else
      match skipSpaces rest with
      | '\x7d' :: tail => some (.object [], tail)
      | body => do
        let (pairs, tail) ← pairsWithin? (depth - 1) bound body
        let members ← inlineMembers? [] pairs
        some (.object (membersToJson members), tail)
  | _ + 1, s => plain? s

/-- The items of an array up to its end. -/
def itemsWithin? (depth : Nat) : Nat → List Char → Option (List Json × List Char)
  | 0, _ => none
  | _ + 1, ']' :: tail => some ([], tail)
  | bound + 1, s => do
    let (item, tail) ← valueWithin? depth bound s
    match skipLines false tail with
    | ',' :: rest =>
      let (items, tail) ← itemsWithin? depth bound (skipLines false rest)
      some (item :: items, tail)
    | ']' :: tail => some ([item], tail)
    | _ => none

/-- The keys and values of an inline table up to its end. -/
def pairsWithin? (depth : Nat) :
    Nat → List Char → Option (List (List String × Json) × List Char)
  | 0, _ => none
  | bound + 1, s => do
    let (path, tail) ← key? s
    match tail with
    | '=' :: rest =>
      let (value, tail) ← valueWithin? depth bound (skipSpaces rest)
      match skipSpaces tail with
      | ',' :: rest =>
        let (pairs, tail) ← pairsWithin? depth bound (skipSpaces rest)
        some ((path, value) :: pairs, tail)
      | '\x7d' :: tail => some ([(path, value)], tail)
      | _ => none
    | _ => none

end

/-- The value at the front, and what is behind it. -/
def value? (s : List Char) : Option (Json × List Char) :=
  valueWithin? maxDepth (2 * s.length + 2) s

/-! ### Lines -/

/-- What a **line** says. -/
inductive Line where
  /-- Nothing. -/
  | blank
  /-- From here on the table with this name is meant. -/
  | header (path : List String)
  /-- From here on a further table in the list with this name is meant. -/
  | element (path : List String)
  /-- A key of the table that is meant has a value. -/
  | assignment (path : List String) (value : Json)

/-- The line at the front, and what is behind it but for blanks and a comment. -/
def line? (s : List Char) : Option (Line × List Char) :=
  match skipSpaces s with
  | '[' :: '[' :: rest => do
    let (path, tail) ← key? (skipSpaces rest)
    match tail with
    | ']' :: ']' :: tail => some (.element path, tail)
    | _ => none
  | '[' :: rest => do
    let (path, tail) ← key? (skipSpaces rest)
    match tail with
    | ']' :: tail => some (.header path, tail)
    | _ => none
  | [] => some (.blank, [])
  | c :: rest =>
    if c = '#' ∨ isControl c then some (.blank, c :: rest)
    else do
      let (path, tail) ← key? (c :: rest)
      match tail with
      | '=' :: tail =>
        let (value, tail) ← value? (skipSpaces tail)
        some (.assignment path value, tail)
      | _ => none

/-- Carries out a line; gives the table that is meant from now on and the document. -/
def Line.apply (current : List String) (members : Members) :
    Line → Option (List String × Members)
  | .blank => some (current, members)
  | .header path => (update false openTable path .stated members).map fun r => (path, r.2)
  | .element path => do
    let key ← path.getLast?
    let (_, members) ← update false (openElement key) path.dropLast .stated members
    some (path, members)
  | .assignment path value =>
    (update false (assignKey path value) current .stated members).map fun r => (current, r.2)

/-- Reads the lines of a document. `bound` bounds their number. -/
def lines? (current : List String) (members : Members) : Nat → List Char → Option Members
  | 0, s => if s.isEmpty then some members else none
  | bound + 1, s =>
    if s.isEmpty then some members
    else do
      let (line, tail) ← line? s
      let rest ← ends? tail
      let (current, members) ← line.apply current members
      lines? current members bound rest

/-- The text without a byte order mark at its front. -/
def skipMark : List Char → List Char
  | '\ufeff' :: rest => rest
  | s => s

mutual

/-- The value with every marked date and time as its text. What is behind the mark does not
matter. -/
def withDates? : Json → Option Json
  | .array items => (itemsWithDates? items).map .array
  | .object ((key, value) :: rest) =>
    if key = dateTimeKey then
      match value with
      | .string s => (DateTime.ofText? s).map fun d => .string (String.ofList d.render)
      | _ => none
    else do
      let value ← withDates? value
      let rest ← membersWithDates? rest
      some (.object ((key, value) :: rest))
  | value => some value

/-- The items with every marked date and time as its text. -/
def itemsWithDates? : List Json → Option (List Json)
  | [] => some []
  | item :: rest => do
    let item ← withDates? item
    let rest ← itemsWithDates? rest
    some (item :: rest)

/-- The members with every marked date and time in their values as its text. -/
def membersWithDates? : List (String × Json) → Option (List (String × Json))
  | [] => some []
  | (key, value) :: rest => do
    let value ← withDates? value
    let rest ← membersWithDates? rest
    some ((key, value) :: rest)

end

/-- Reads a document; its value is an object, unless a date or a time is all that it says. -/
def read? (text : String) : Option Json :=
  let s := skipMark text.toList
  (lines? [] [] (s.length + 1) s).bind fun members => withDates? (.object (membersToJson members))

end SpeechService.Toml
