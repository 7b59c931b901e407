import SpeechService.Json.Tree
import SpeechService.Text.Quoted

/-!
# Reading records from JSON

A record is read from a tree in the order of the text, and the first problem ends the reading:
either the text is not JSON at that place, or it is and does not fit. A record may be written as
an object, with its fields in any order and other members between them, or as an array of its
fields in their order. Members that are no fields are only required to be well formed.
-/

namespace SpeechService.Json

/-- Why well-formed JSON does not fit. -/
inductive Fault where
  /-- Another kind of value was expected. -/
  | wrongType (found expected : String)
  /-- The integer is out of range. -/
  | outOfRange (found : Int) (expected : String)
  /-- An array ends too early. -/
  | tooShort (length : Nat) (expected : String)
  /-- A field is not there. -/
  | missingField (name : String)
  /-- A field is there twice. -/
  | repeatedField (name : String)
deriving DecidableEq, Repr

/-- The message of a fault. -/
def Fault.message : Fault → String
  | .wrongType found expected => "invalid type: " ++ found ++ ", expected " ++ expected
  | .outOfRange found expected =>
    "invalid value: integer `" ++ Text.ofInt found ++ "`, expected " ++ expected
  | .tooShort length expected =>
    "invalid length " ++ Text.ofNat length ++ ", expected " ++ expected
  | .missingField name => "missing field `" ++ name ++ "`"
  | .repeatedField name => "duplicate field `" ++ name ++ "`"

/-- The name of a place inside a record, from its field or its position in an array. -/
inductive Place where
  | field (name : String)
  | item (index : Nat)
deriving DecidableEq, Repr

/-- The text of a place. -/
def Place.text : Place → String
  | .field name => name
  | .item index => "[" ++ Text.ofNat index ++ "]"

/-- What ends the reading of a record. -/
inductive Problem where
  /-- The text is not JSON. -/
  | malformed
  /-- What stands at a place does not fit. -/
  | fault (place : Option Place) (cause : Fault)
deriving DecidableEq, Repr

namespace Problem

/-- A fault of the whole, or of something whose place is told already. -/
def here (cause : Fault) : Problem := .fault none cause

/-- Tells the place of a fault, unless a place inside it is told. -/
def inside (place : Place) : Problem → Problem
  | .fault none cause => .fault (some place) cause
  | p => p

end Problem

/-- A **reader** of values of the type `α`. -/
abbrev Reader (α : Type) := Tree → Except Problem α

/-- What a value is called in messages; a value that is not well formed has no name. -/
def Tree.called? : Tree → Option String
  | .missing => none
  | .null => some "null"
  | .bool b => some ("boolean `" ++ (if b then "true" else "false") ++ "`")
  | .number n => n.value?.map fun
    | .integer i => "integer `" ++ Text.ofInt i ++ "`"
    | .float x => "floating point `" ++ floatText x ++ "`"
  | .string raw => (decodeString? raw).map fun s => "string " ++ Text.quoted s
  | .array _ _ => some "sequence"
  | .object _ _ => some "map"

namespace Reader

/-- A value of another kind than the expected one. -/
def mismatch {α : Type} (expected : String) : Reader α := fun t =>
  match t.called? with
  | some found => .error (.here (.wrongType found expected))
  | none => .error .malformed

/-- A text. -/
def text : Reader String
  | .string raw =>
    match decodeString? raw with
    | some s => .ok s
    | none => .error .malformed
  | t => mismatch "a string" t

/-- Any number, as a double. -/
def double : Reader Double
  | .number n =>
    match n.value? with
    | some (.integer i) => .ok (.ofRatio .double (i < 0) i.natAbs 1)
    | some (.float x) => .ok x
    | none => .error .malformed
  | t => mismatch "f64" t

/-- An integer between two bounds. -/
def integer (low high : Int) (expected : String) : Reader Int
  | .number n =>
    match n.value? with
    | some (.integer i) =>
      if low ≤ i ∧ i ≤ high then .ok i else .error (.here (.outOfRange i expected))
    | _ => mismatch expected (.number n)
  | t => mismatch expected t

/-- A value or null. -/
def optional {α : Type} (r : Reader α) : Reader (Option α)
  | .null => .ok none
  | t => (r t).map some

/-- The items of an array. -/
def items {α : Type} (r : Reader α) : Nat → List Tree → Except Problem (List α)
  | _, [] => .ok []
  | i, t :: rest => do
    let x ← (r t).mapError (.inside (.item i))
    let xs ← items r (i + 1) rest
    return x :: xs

/-- An array. -/
def list {α : Type} (r : Reader α) : Reader (List α)
  | .array ts closed => do
    let xs ← items r 0 ts
    if closed then return xs else throw .malformed
  | t => mismatch "a sequence" t

/-- A **field** of a record under construction: its name, how it is put in, and whether an array
may end before it. -/
structure Field (ρ : Type) where
  name : String
  put : ρ → Reader ρ
  mayLack : Bool

/-- A field whose value is read and then stored. -/
def field {ρ α : Type} (name : String) (r : Reader α) (mayLack : Bool)
    (store : ρ → α → ρ) : Field ρ :=
  ⟨name, fun record t => (r t).map (store record), mayLack⟩

/-- The members of an object, put into a record one after another. `seen` holds the fields that
were met already. -/
def members {ρ : Type} (fields : List (Field ρ)) (seen : List String) (record : ρ) :
    List (List UInt8 × Tree) → Except Problem ρ
  | [] => .ok record
  | (raw, t) :: rest =>
    match decodeString? raw with
    | none => .error .malformed
    | some key =>
      match fields.find? (·.name == key) with
      | none => if t.isWhole then members fields seen record rest else .error .malformed
      | some f =>
        if key ∈ seen then .error (.here (.repeatedField key))
        else do
          let record ← (f.put record t).mapError (.inside (.field key))
          members fields (key :: seen) record rest

/-- The items of an array, put into a record field by field. `expected` describes the record for
an array that is too short. -/
def positions {ρ : Type} (expected : String) (closed : Bool) (index : Nat) (record : ρ) :
    List (Field ρ) → List Tree → Except Problem ρ
  | [], [] => if closed then .ok record else .error .malformed
  | [], _ :: _ => .error .malformed
  | f :: fs, [] =>
    if !closed then .error .malformed
    else if f.mayLack then positions expected closed (index + 1) record fs []
    else .error (.here (.tooShort index expected))
  | f :: fs, t :: ts => do
    let record ← (f.put record t).mapError (.inside (.item index))
    positions expected closed (index + 1) record fs ts

/-- The description of a record with a number of fields. -/
def recordText (name : String) (size : Nat) : String :=
  "struct " ++ name ++ " with " ++ Text.ofNat size ++ (if size = 1 then " element" else " elements")

/-- A record, as an object or as an array of its fields. -/
def record {ρ : Type} (name : String) (fields : List (Field ρ)) (blank : ρ) : Reader ρ
  | .object ms closed => do
    let r ← members fields [] blank ms
    if closed then return r else throw .malformed
  | .array ts closed => positions (recordText name fields.length) closed 0 blank fields ts
  | t => mismatch ("struct " ++ name) t

end Reader

end SpeechService.Json
