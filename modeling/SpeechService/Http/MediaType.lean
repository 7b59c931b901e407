/-!
# Media types

A media type is a type and a subtype with a slash between them, and parameters behind semicolons.
The subtype may have a suffix behind its last plus sign, which names the format that it is built
on. `MediaType.isJson` tells whether a header announces JSON.
-/

namespace SpeechService.Http

/-- A **media type**: its type, its subtype up to the last plus sign, and its suffix, in lower
case. -/
structure MediaType where
  kind : List Char
  subtype : List Char
  suffix : Option (List Char) := none
deriving DecidableEq, Repr

namespace MediaType

/-- A character of a name. -/
def isToken (c : Char) : Bool := c.isAlphanum || "!#$%&'*+-.^_`|~".toList.contains c

/-- How far the parameters have been read. -/
inductive Spot where
  /-- Before the name of a parameter. -/
  | ahead
  | name
  /-- Behind an equals sign. -/
  | equals
  | value
  /-- In a quoted value, and whether anything stands in it. -/
  | quoted (started : Bool)
  /-- Behind a quoted value. -/
  | closed

/-- The parameters follow their form: names with values, which may be empty or in quotes. -/
def parametersFit : Spot → List Char → Bool
  | .ahead, [] | .equals, [] | .value, [] | .closed, [] => true
  | .name, [] | .quoted _, [] => false
  | .ahead, ' ' :: rest => parametersFit .ahead rest
  | .ahead, c :: rest => isToken c && parametersFit .name rest
  | .name, '=' :: rest => parametersFit .equals rest
  | .name, c :: rest => isToken c && parametersFit .name rest
  | .equals, '"' :: rest => parametersFit (.quoted false) rest
  | .equals, c :: rest => isToken c && parametersFit .value rest
  | .value, ';' :: rest => parametersFit .ahead rest
  | .value, c :: rest => isToken c && parametersFit .value rest
  | .quoted true, '"' :: rest => parametersFit .closed rest
  | .quoted _, c :: rest => (31 < c.toNat && c.toNat != 127) && parametersFit (.quoted true) rest
  | .closed, ';' :: rest => parametersFit .ahead rest
  | .closed, ' ' :: rest => parametersFit .closed rest
  | .closed, _ :: _ => false

/-- Cuts a subtype at its last plus sign, unless it starts with that one. -/
def cut (subtype : List Char) : List Char × Option (List Char) :=
  let suffix := (subtype.reverse.takeWhile (· ≠ '+')).reverse
  let before := subtype.take (subtype.length - suffix.length - 1)
  if suffix.length = subtype.length ∨ before.isEmpty then (subtype, none)
  else (before, some suffix)

/-- Reads a media type. -/
def read? (s : List Char) : Option MediaType :=
  let kind := s.takeWhile isToken
  match s.dropWhile isToken with
  | '/' :: rest =>
    let subtype := rest.takeWhile isToken
    let fits := match rest.dropWhile isToken with
      | [] => true
      | ';' :: parameters => !subtype.isEmpty && parametersFit .ahead parameters
      | _ => false
    if kind.isEmpty || !fits then none
    else
      let (subtype, suffix) := cut (subtype.map Char.toLower)
      some ⟨kind.map Char.toLower, subtype, suffix⟩
  | _ => none

/-- A character that a header may show as text. -/
def isVisible (c : Char) : Bool := c == '\t' || (32 ≤ c.toNat && c.toNat < 127)

/-- A header announces JSON: as a subtype of its own, or as what another one is built on. -/
def isJson (header : String) : Bool :=
  header.toList.all isVisible &&
    match read? header.toList with
    | some m =>
      m.kind == "application".toList
        && (m.subtype == "json".toList || m.suffix == some "json".toList)
    | none => false

end MediaType

end SpeechService.Http
