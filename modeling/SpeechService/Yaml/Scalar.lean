import SpeechService.Binary.Decimal
import SpeechService.Json.Value
import SpeechService.Text.Base

/-!
# Scalars of YAML

What a plain text of YAML stands for is told by its spelling: nothing, a truth value, an integer,
a number, or else itself. A tag overrides the spelling.
-/

namespace SpeechService.Yaml

/-- A **scalar**. A number keeps its spelling, since keys are told apart by it. -/
inductive Scalar where
  | null
  | bool (value : Bool)
  | integer (value : Int)
  | number (spelling : List Char)
  | text (value : List Char)
deriving DecidableEq

/-- A **tag**, as far as it matters. -/
inductive Tag where
  /-- One of the common ones, by its name. -/
  | common (name : String)
  | other
deriving DecidableEq

namespace Scalar

/-- An integer of 64 signed bits in a base, with an optional sign. -/
def integer? (base : Nat) : List Char → Option Int
  | '+' :: digits => (Text.inBase? base 9223372036854775807 digits).map Int.ofNat
  | '-' :: digits => (Text.inBase? base 9223372036854775808 digits).map fun n => -Int.ofNat n
  | digits => (Text.inBase? base 9223372036854775807 digits).map Int.ofNat

/-- An integer behind the mark of its base, or behind a plus sign that a further sign may
follow. -/
def marked? : List Char → Option Int
  | '0' :: 'x' :: digits => integer? 16 digits
  | '0' :: 'o' :: digits => integer? 8 digits
  | '+' :: digits => integer? 10 digits
  | _ => none

/-- The spellings of infinity and of what is not a number. They are known as numbers, but no value
is found for them. -/
def specialNumbers : List String :=
  [".inf", ".Inf", ".INF", "+.inf", "+.Inf", "+.INF", "-.inf", "-.Inf", "-.INF", ".nan", ".NaN",
    ".NAN"]

/-- The text spells a number. -/
def isNumber (s : List Char) : Bool :=
  specialNumbers.contains (String.ofList s) || (Binary.read? s).isSome

/-- The scalar that a plain text stands for. -/
def ofPlain (s : List Char) : Scalar :=
  if s = [] ∨ s = ['~'] ∨ s = "null".toList then .null
  else if s = "true".toList then .bool true
  else if s = "false".toList then .bool false
  else
    match (marked? s).or (integer? 10 s) with
    | some n => .integer n
    | none => if isNumber s then .number s else .text s

/-- The scalar that a plain text under a tag stands for. -/
def ofTagged (s : List Char) : Tag → Scalar
  | .common "bool" =>
    if s = "true".toList then .bool true
    else if s = "false".toList then .bool false
    else .null
  | .common "int" => ((integer? 10 s).map Scalar.integer).getD .null
  | .common "float" => if isNumber s then .number s else .null
  | .common "null" => .null
  | _ => .text s

/-- The value of a scalar. -/
def value? : Scalar → Option Json
  | .null => some .null
  | .bool b => some (.bool b)
  | .integer n => some (.integer n)
  | .number s => (Binary.read? s).map .float
  | .text s => some (.string (String.ofList s))

/-- The name of a member with a scalar as its key: only texts and integers are. -/
def key? : Scalar → Option String
  | .integer n => some (Text.ofInt n)
  | .text s => some (String.ofList s)
  | _ => none

end Scalar

end SpeechService.Yaml
