import SpeechService.Json.Value
import SpeechService.Text.Lowercase

/-!
# The store of settings

The values of all sources in one tree. A value is written to the end of a path of steps: a step
leads to a key of a table or to an item of an array, and what is no table or no array on the way
becomes one. At its end a table is merged key by key, and any other value takes the place of what
was there. Keys do not tell upper from lower case. Every value remembers where it comes from;
tables that the store has put together come from nowhere.
-/

namespace SpeechService

/-- Where a value comes from. -/
inductive Origin where
  | file (path : String)
  | environment
deriving DecidableEq, Repr

/-- An origin in words. -/
def Origin.text : Origin → String
  | .file path => path
  | .environment => "the environment"

/-- A value without parts. -/
inductive Scalar where
  | null
  | bool (value : Bool)
  | integer (value : Int)
  | float (value : Double)
  | string (value : String)
deriving DecidableEq, Repr

/-- A **store** of settings. -/
inductive Store where
  | leaf (value : Scalar) (origin : Option Origin)
  | array (items : List Store) (origin : Option Origin)
  | table (members : List (String × Store)) (origin : Option Origin)
deriving Inhabited

/-- A **step** on a path. -/
inductive PathStep where
  /-- To a key of a table. -/
  | key (name : String)
  /-- To an item of an array; below zero it is counted from the end. -/
  | item (index : Int)
deriving DecidableEq, Repr

namespace Store

/-- The table without members. -/
def empty : Store := .table [] none

/-- Nothing. -/
def null : Store := .leaf .null none

/-- The members of a table; nothing else has any. -/
def members : Store → List (String × Store)
  | .table ms _ => ms
  | _ => []

/-- The items of an array; nothing else has any. -/
def items : Store → List Store
  | .array xs _ => xs
  | _ => []

/-- What stands under a key. -/
def get? (s : Store) (key : String) : Option Store := s.members.lookup key

/-- The table with a store under a key; anything else becomes a table. -/
def set (s : Store) (key : String) (entry : Store) : Store :=
  let others := s.members.filter fun m => m.1 ≠ key
  match s with
  | .table _ origin => .table ((key, entry) :: others) origin
  | _ => .table [(key, entry)] none

/-- The place of an item in an array; an index below zero cannot lead before the first one. -/
def place? (count : Nat) (index : Int) : Option Nat :=
  if 0 ≤ index then some index.toNat
  else if index.natAbs ≤ count then some (count - index.natAbs)
  else none

/-- The array with its item at a place changed. It is filled up with nothing as far as needed;
anything else becomes an array. -/
def changeItem (s : Store) (index : Int) (change : Store → Store) : Store :=
  match place? s.items.length index with
  | none => s
  | some place =>
    let filled := s.items ++ List.replicate (place + 1 - s.items.length) null
    let changed := filled.modify place change
    match s with
    | .array _ origin => .array changed origin
    | _ => .array changed none

mutual

/-- Writes a value under a key. An empty table changes nothing where something stands already. -/
def write (s : Store) (key : String) : Store → Store
  | .table ms _ => s.set key (writeAll ((s.get? key).getD empty) ms)
  | value => s.set key value

/-- Writes the members of a table, one after another. -/
def writeAll (s : Store) : List (String × Store) → Store
  | [] => s
  | (key, value) :: rest => writeAll (write s key value) rest

end

/-- Writes a value at the end of a path. -/
def put (s : Store) (path : List PathStep) (value : Store) : Store :=
  match path with
  | [] => value
  | [.key name] => s.write name value
  | .key name :: path => s.set name (((s.get? name).getD null).put path value)
  | .item index :: path => s.changeItem index (·.put path value)

/-! ### Values of documents -/

/-- The members with their keys in lower case. Of keys that differ only in case the greatest one
counts, and of equal keys the last one. -/
def distinct : List (String × Store) → List (String × Store)
  | [] => []
  | (key, value) :: rest =>
    let same := Text.lower key
    if rest.any fun m => Text.lower m.1 == same && decide (key ≤ m.1) then distinct rest
    else (same, value) :: (distinct rest).filter fun m => m.1 ≠ same

/-- The greatest and the least integer of a document are those of 64 signed bits; integers
beyond them are numbers like those with a point. -/
def ofInteger (n : Int) : Scalar :=
  if -9223372036854775808 ≤ n ∧ n ≤ 9223372036854775807 then .integer n
  else .float (.ofRatio .double (n < 0) n.natAbs 1)

mutual

/-- The store of a value. -/
def ofJson (origin : Option Origin) : Json → Store
  | .null => .leaf .null origin
  | .bool b => .leaf (.bool b) origin
  | .integer n => .leaf (ofInteger n) origin
  | .float x => .leaf (.float x) origin
  | .string s => .leaf (.string s) origin
  | .array xs => .array (ofItems origin xs) origin
  | .object ms => .table (distinct (ofMembers origin ms)) origin

/-- The stores of items. -/
def ofItems (origin : Option Origin) : List Json → List Store
  | [] => []
  | x :: rest => ofJson origin x :: ofItems origin rest

/-- The stores of members. -/
def ofMembers (origin : Option Origin) : List (String × Json) → List (String × Store)
  | [] => []
  | (key, value) :: rest => (key, ofJson origin value) :: ofMembers origin rest

end

end Store

/-- What one **source** says: values at the ends of paths. -/
abbrev Layer := List (List PathStep × Store)

namespace Layer

/-- Writes a layer on top of a store. -/
def writeTo (s : Store) (layer : Layer) : Store :=
  layer.foldl (fun s (path, value) => s.put path value) s

/-- The store of several layers, the later ones on top. -/
def stack (layers : List Layer) : Store := layers.foldl writeTo .empty

end Layer

end SpeechService
