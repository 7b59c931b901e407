import SpeechService.Settings.Store
import SpeechService.Text.Integer

/-!
# Keys that are paths

A key of a source may spell out a path: names between points, each followed by any number of
places in square brackets. A key that does not follow this form stands for itself. The environment
writes two underscores for a point.
-/

namespace SpeechService.KeyPath

/-- A character of a name on a path. -/
def isNameChar (c : Char) : Bool := c.isAlphanum || c == ' ' || c == '_' || c == '-'

/-- The name at the front, and what is behind it. -/
def name? (s : List Char) : Option (PathStep × List Char) :=
  if (s.takeWhile isNameChar).isEmpty then none
  else some (.key (String.ofList (s.takeWhile isNameChar)), s.dropWhile isNameChar)

/-- A blank beside the number of a place. -/
def isBlank (c : Char) : Bool := c == ' ' || c == '\t' || c == '\r' || c == '\n'

/-- The greatest number of a place. -/
def maxIndex : Nat := 9223372036854775807

/-- The place at the front, behind its opening bracket, and what is behind it. -/
def item? (s : List Char) : Option (PathStep × List Char) := do
  let s := s.dropWhile isBlank
  let negative := s.head? = some '-'
  let s := if negative then s.drop 1 else s
  let n ← Text.digits? (if negative then maxIndex + 1 else maxIndex) (s.takeWhile Char.isDigit)
  match (s.dropWhile Char.isDigit).dropWhile isBlank with
  | ']' :: rest => some (.item (if negative then -n else n), rest)
  | _ => none

/-- The steps that follow a name. `bound` bounds their number. -/
def steps? : Nat → List Char → Option (List PathStep)
  | _, [] => some []
  | 0, _ => none
  | bound + 1, '.' :: rest => do
    let (step, rest) ← name? rest
    (steps? bound rest).map (step :: ·)
  | bound + 1, '[' :: rest => do
    let (step, rest) ← item? rest
    (steps? bound rest).map (step :: ·)
  | _, _ => none

/-- The path that a text spells out. -/
def read? (s : List Char) : Option (List PathStep) := do
  let (step, rest) ← name? s
  (steps? rest.length rest).map (step :: ·)

/-- The path that a key stands for. -/
def ofKey (key : String) : List PathStep :=
  (read? (Text.lower key).toList).getD [.key (Text.lower key)]

/-- Two underscores become one point. -/
def pointed : List Char → List Char
  | '_' :: '_' :: rest => '.' :: pointed rest
  | c :: rest => c :: pointed rest
  | [] => []

/-- What the names of the variables in question start with. -/
def variableStart : String := "kugelaudio_"

/-- The path that a variable stands for, if its name is one of those in question. -/
def ofVariable? (name : String) : Option (List PathStep) :=
  (variableStart.toList.isPrefixOf? (Text.lower name).toList).map fun rest =>
    ofKey (String.ofList (pointed rest))

end SpeechService.KeyPath
