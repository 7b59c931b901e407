import SpeechService.Json.Token
import SpeechService.Json.Value

/-!
# JSON trees

The tokens of a text are put together into a tree, as far as they follow the grammar. Where they
stop doing so, the tree is **broken off**: an array or an object is left open, or a member is left
without a value. A reader that walks a tree in the order of the text therefore meets a fault of
grammar exactly where it stands, after everything that comes before it.

`Tree.ofBytes` gives the tree and the tokens that follow it.
-/

namespace SpeechService.Json

/-- The **tree** of a JSON text. Strings and numbers are kept as they are spelled; `closed` tells
whether the closing bracket was met in its place. -/
inductive Tree where
  /-- No value could be read here. -/
  | missing
  | null
  | bool (value : Bool)
  | number (numeral : Numeral)
  | string (raw : List UInt8)
  | array (items : List Tree) (closed : Bool)
  | object (members : List (List UInt8 × Tree)) (closed : Bool)
deriving Inhabited

namespace Tree

/-- A bracket that is still open, with what stands inside it so far, the last one first. -/
inductive Frame where
  | array (items : List Tree)
  /-- An object, and the key whose value comes next. -/
  | object (members : List (List UInt8 × Tree)) (key : List UInt8)

/-- What may come next. -/
inductive Expectation where
  /-- A value. -/
  | value
  /-- A value, or the end of an array that is still empty. -/
  | valueOrEnd
  /-- A comma or the end. -/
  | commaOrEnd
  /-- A key. -/
  | key
  /-- A key, or the end of an object that is still empty. -/
  | keyOrEnd
  /-- The colon behind a key. -/
  | colon

/-- The innermost bracket is closed, or broken off, around what it holds. -/
def Frame.finish (closed : Bool) : Frame → Tree
  | .array items => .array items.reverse closed
  | .object members _ => .object members.reverse closed

/-- A finished value is put into a bracket. -/
def Frame.add (t : Tree) : Frame → Frame
  | .array items => .array (t :: items)
  | .object members key => .object ((key, t) :: members) key

/-- All open brackets are broken off around a value. -/
def breakOff (t : Tree) : List Frame → Tree
  | [] => t
  | frame :: frames => breakOff ((frame.add t).finish false) frames

/-- All open brackets are broken off where they stand. -/
def breakOffOpen : List Frame → Tree
  | [] => .missing
  | frame :: frames => breakOff (frame.finish false) frames

/-- The value of a token that is one. -/
def scalar? : Token → Option Tree
  | .null => some .null
  | .bool b => some (.bool b)
  | .number n => some (.number n)
  | .string raw => some (.string raw)
  | _ => none

/-- The tree of a text that stops following the grammar here. Behind a key the value is what is
missing; elsewhere the open bracket is. -/
def abandon : Expectation → List Frame → Tree
  | .colon, frames => breakOff .missing frames
  | .value, .object members key :: frames => breakOff .missing (.object members key :: frames)
  | _, frames => breakOffOpen frames

/-- Where a token leads. -/
inductive Progress where
  /-- On to the next token. -/
  | onward (expectation : Expectation) (frames : List Frame)
  /-- To the end of the outermost value. -/
  | whole (tree : Tree)
  /-- Nowhere: it does not follow the grammar. -/
  | misfit

/-- Goes on behind a finished value. -/
def settle (t : Tree) : List Frame → Progress
  | [] => .whole t
  | frame :: frames => .onward .commaOrEnd (frame.add t :: frames)

/-- Starts a value. -/
def start (frames : List Frame) : Token → Progress
  | .openBracket => .onward .valueOrEnd (.array [] :: frames)
  | .openBrace => .onward .keyOrEnd (.object [] [] :: frames)
  | t =>
    match scalar? t with
    | some v => settle v frames
    | none => .misfit

/-- Where a token leads, by what may come next and the open brackets. -/
def step : Expectation → List Frame → Token → Progress
  | .valueOrEnd, .array items :: frames, .closeBracket
  | .commaOrEnd, .array items :: frames, .closeBracket =>
    settle ((Frame.array items).finish true) frames
  | .keyOrEnd, .object members key :: frames, .closeBrace
  | .commaOrEnd, .object members key :: frames, .closeBrace =>
    settle ((Frame.object members key).finish true) frames
  | .commaOrEnd, .array items :: frames, .comma => .onward .value (.array items :: frames)
  | .commaOrEnd, .object members key :: frames, .comma =>
    .onward .key (.object members key :: frames)
  | .key, .object members _ :: frames, .string raw
  | .keyOrEnd, .object members _ :: frames, .string raw =>
    .onward .colon (.object members raw :: frames)
  | .colon, frames, .colon => .onward .value frames
  | .value, frames, t | .valueOrEnd, frames, t => start frames t
  | _, _, _ => .misfit

/-- Puts tokens together; gives the tree and the tokens behind it. -/
def build (expectation : Expectation) (frames : List Frame) : List Token → Tree × List Token
  | [] => (abandon expectation frames, [])
  | t :: rest =>
    match step expectation frames t with
    | .onward e fs => build e fs rest
    | .whole tree => (tree, rest)
    | .misfit => (abandon expectation frames, t :: rest)

/-- The tree of a text and the tokens behind it. -/
def ofBytes (bytes : List UInt8) : Tree × List Token := build .value [] (tokens bytes)

mutual

/-- Nothing is missing in a tree and nothing in it is left open. -/
def isWhole : Tree → Bool
  | .missing => false
  | .array items closed => areWhole items && closed
  | .object members closed => membersAreWhole members && closed
  | _ => true

/-- All items are whole. -/
def areWhole : List Tree → Bool
  | [] => true
  | t :: rest => isWhole t && areWhole rest

/-- All values of members are whole. -/
def membersAreWhole : List (List UInt8 × Tree) → Bool
  | [] => true
  | (_, t) :: rest => isWhole t && membersAreWhole rest

end

mutual

/-- The value of a whole tree, if its strings are text and its numbers are in range. -/
def value? : Tree → Option Json
  | .missing => none
  | .null => some .null
  | .bool b => some (.bool b)
  | .number n => n.value?.map fun
    | .integer i => .integer i
    | .float x => .float x
  | .string raw => (decodeString? raw).map .string
  | .array items closed => if closed then (values? items).map .array else none
  | .object members closed => if closed then (memberValues? members).map .object else none

/-- The values of items. -/
def values? : List Tree → Option (List Json)
  | [] => some []
  | t :: rest => do
    let v ← value? t
    let vs ← values? rest
    some (v :: vs)

/-- The keys and values of members. -/
def memberValues? : List (List UInt8 × Tree) → Option (List (String × Json))
  | [] => some []
  | (raw, t) :: rest => do
    let key ← decodeString? raw
    let v ← value? t
    let vs ← memberValues? rest
    some ((key, v) :: vs)

end

end Tree

/-- Brackets stand within each other up to this depth. -/
def maxDepth : Nat := 127

/-- No bracket is deeper than the limit, where so many are open already. -/
def isShallow (depth : Nat) : List Token → Bool
  | [] => true
  | .openBracket :: rest | .openBrace :: rest => depth < maxDepth && isShallow (depth + 1) rest
  | .closeBracket :: rest | .closeBrace :: rest => isShallow (depth - 1) rest
  | _ :: rest => isShallow depth rest

/-- Reads a text that is one JSON value and nothing else. -/
def read? (bytes : List UInt8) : Option Json :=
  let ts := tokens bytes
  if isShallow 0 ts then
    match Tree.build .value [] ts with
    | (tree, []) => tree.value?
    | _ => none
  else none

end SpeechService.Json
