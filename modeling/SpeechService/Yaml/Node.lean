import SpeechService.Yaml.Scalar

/-!
# Nodes of YAML

A document is a tree of nodes. A node may carry a name, and a later place may stand for the node
with a name. `Node.resolve?` puts the named nodes in, and `Node.value?` gives the value of what
is left: every key of a mapping has to be a text or an integer, and none may be given twice.
-/

namespace SpeechService.Yaml

/-- A **node** of a document. -/
inductive Node where
  /-- A plain text, or nothing where that is empty. -/
  | plain (text : List Char) (tag : Option Tag)
  /-- A text that is quoted or a block. -/
  | text (text : List Char)
  | sequence (items : List Node)
  | mapping (members : List (Node × Node))
  /-- A node with a name. -/
  | named (name : List Char) (node : Node)
  /-- What the name stands for. -/
  | alias (name : List Char)
deriving Inhabited

namespace Node

/-- Nothing. -/
def empty : Node := .plain [] none

/-- The nodes with names, the last one first. -/
abbrev Names := List (List Char × Node)

mutual

/-- The node with the named nodes put in, and all names up to its end. -/
def resolve? (names : Names) : Node → Option (Node × Names)
  | .alias name => (names.lookup name).map (·, names)
  | .named name node => do
    let (node, names) ← resolve? names node
    some (node, (name, node) :: names)
  | .sequence items => (resolveAll? names items).map fun (items, names) => (.sequence items, names)
  | .mapping members =>
    (resolveMembers? names members).map fun (members, names) => (.mapping members, names)
  | .plain s tag => some (.plain s tag, names)
  | .text s => some (.text s, names)

/-- The items with the named nodes put in. -/
def resolveAll? (names : Names) : List Node → Option (List Node × Names)
  | [] => some ([], names)
  | item :: rest => do
    let (item, names) ← resolve? names item
    let (rest, names) ← resolveAll? names rest
    some (item :: rest, names)

/-- The members with the named nodes put in. -/
def resolveMembers? (names : Names) : List (Node × Node) → Option (List (Node × Node) × Names)
  | [] => some ([], names)
  | (key, value) :: rest => do
    let (key, names) ← resolve? names key
    let (value, names) ← resolve? names value
    let (rest, names) ← resolveMembers? names rest
    some ((key, value) :: rest, names)

end

/-- The scalar that a node is. -/
def scalar? : Node → Option Scalar
  | .plain s none => some (.ofPlain s)
  | .plain s (some tag) => some (.ofTagged s tag)
  | .text s => some (.text s)
  | _ => none

mutual

/-- The value of a node without names. -/
def value? : Node → Option Json
  | .sequence items => (values? items).map .array
  | .mapping members => (memberValues? [] members).map .object
  | node => node.scalar?.bind Scalar.value?

/-- The values of items. -/
def values? : List Node → Option (List Json)
  | [] => some []
  | item :: rest => do
    let item ← value? item
    let rest ← values? rest
    some (item :: rest)

/-- The members of a mapping, where some keys have been given already. -/
def memberValues? (given : List Scalar) : List (Node × Node) → Option (List (String × Json))
  | [] => some []
  | (key, value) :: rest => do
    let key ← key.scalar?
    let name ← key.key?
    if key ∈ given then none
    else do
      let value ← value? value
      let rest ← memberValues? (key :: given) rest
      some ((name, value) :: rest)

end

end Node

end SpeechService.Yaml
