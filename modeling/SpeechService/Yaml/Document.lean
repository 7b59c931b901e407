import SpeechService.Yaml.Lexeme
import SpeechService.Yaml.Node

/-!
# YAML documents

A YAML document is a node. A node stands in a block, where columns tell how its parts belong
together, or between brackets. In a block, the entries of a sequence or a mapping start lines in one
column, and what belongs to an entry stands further right; only a sequence may stand in the column
of the key that it belongs to.

A reader starts at the place of a word and gives a node and the place of the next word.
-/

namespace SpeechService.Yaml

/-! ### What stands in front of a node -/

/-- A character of a name. -/
def isNameChar (c : Char) : Bool := !isSpace c && c != '\n' && !isBracketChar c

/-- The tag that a text behind its first mark spells. -/
def tag? : List Char → Option Tag
  | '<' :: rest => if rest.getLast? = some '>' then some .other else none
  | '!' :: [] => none
  | '!' :: name => some (.common (String.ofList name))
  | name => if name.contains '!' then none else some .other

/-- The **properties** of a node. -/
structure Properties where
  name : Option (List Char) := none
  tag : Option Tag := none

/-- The node with its name. -/
def Properties.apply (ps : Properties) (node : Node) : Node :=
  match ps.name with
  | some name => .named name node
  | none => node

/-- There are no properties. -/
def Properties.isEmpty (ps : Properties) : Bool := ps.name.isNone && ps.tag.isNone

/-- The properties in front of a node on its line, and the place behind them. `bound` bounds their
number. -/
def properties? (least : Nat) (ps : Properties) : Nat → Place → Option (Properties × Place)
  | 0, p => some (ps, p)
  | bound + 1, p =>
    let word := (p.rest.drop 1).takeWhile isNameChar
    let behind := p.advance (word.length + 1)
    if p.fresh ∧ ¬ps.isEmpty then some (ps, p)
    else
      match p.rest.head? with
      | some '&' =>
        if word.isEmpty ∨ ps.name.isSome then none
        else do properties? least { ps with name := some word } bound (← behind.skip? least)
      | some '!' =>
        if ps.tag.isSome then none
        else do
          let tag ← tag? word
          properties? least { ps with tag := some tag } bound (← behind.skip? least)
      | _ => some (ps, p)

/-! ### Keys and values -/

/-- A colon that a value follows stands here. Right behind a key that is not plain, and before a
comma or a bracket that closes, no blank is needed between brackets. -/
def isValueMark (inBrackets adjacent : Bool) (p : Place) : Bool :=
  match p.rest with
  | ':' :: rest =>
    isApart rest || (inBrackets && (adjacent || rest.head?.any isBracketChar))
  | _ => false

/-- The place of the value behind a colon. A tab alone does not set off a word. -/
def valuePlace? (least : Nat) (p : Place) : Option Place :=
  let behind := p.advance 1
  let spaces := behind.rest.takeWhile isSpace
  let isWord := (behind.rest.drop spaces.length).head?.any fun c =>
    c.isAlphanum || c == '-' || c == '_'
  if behind.rest.head? = some '\t' ∧ ¬spaces.contains ' ' ∧ isWord then none
  else behind.skip? least

/-! ### Between brackets -/

mutual

/-- A node in one style: between quotes or brackets, plain, or the name of another node. Here and
below, `bound` bounds the depth of the calls; it stays above the length of the text. -/
def content? (inBrackets : Bool) (least : Nat) (ps : Properties) :
    Nat → Place → Option (Node × Place)
  | 0, _ => none
  | bound + 1, p => do
    let inside := p.advance 1
    let (node, behind) ← match p.rest with
      | '"' :: _ => do
        let (text, p) ← quoted? '"' true least bound inside
        some (Node.text text, p)
      | '\x27' :: _ => do
        let (text, p) ← quoted? '\x27' false least bound inside
        some (Node.text text, p)
      | '[' :: _ => do
        let (items, p) ← items? least bound (← inside.skip? least)
        some (Node.sequence items, p)
      | '\x7b' :: _ => do
        let (members, p) ← members? least bound (← inside.skip? least)
        some (Node.mapping members, p)
      | '*' :: rest =>
        let word := rest.takeWhile isNameChar
        if word.isEmpty ∨ ¬ps.isEmpty then none
        else some (Node.alias word, inside.advance word.length)
      | rest =>
        if startsPlain inBrackets rest then
          let (text, p) := plain inBrackets least bound p
          some (Node.plain text ps.tag, p)
        else if ps.isEmpty then none
        else some (Node.plain [] ps.tag, p)
    some (ps.apply node, ← behind.skip? least)

/-- A node between brackets, with the mark whether it is no plain text. -/
def inner? (least : Nat) : Nat → Place → Option (Node × Bool × Place)
  | 0, _ => none
  | bound + 1, p => do
    let (ps, p) ← properties? least {} 3 p
    if p.column < least ∨ p.isEnd then none
    else do
      let (node, behind) ← content? true least ps bound p
      let isPlain := startsPlain true p.rest
      some (node, !isPlain, behind)

/-- The value behind a key between brackets, if there is one. -/
def innerValue? (least : Nat) : Nat → Bool → Place → Option (Node × Place)
  | 0, _, _ => none
  | bound + 1, adjacent, p =>
    if isValueMark true adjacent p then do
      if ¬adjacent ∧ (p.rest.drop 1).head?.any (fun c => c = '[' ∨ c = '\x7b') then none
      else do
        let p ← valuePlace? least p
        if p.rest.head?.any fun c => c = ',' ∨ c = ']' ∨ c = '\x7d' then some (.empty, p)
        else do
          let (value, _, p) ← inner? least bound p
          some (value, p)
    else some (.empty, p)

/-- The items of a sequence up to its bracket. An item may be a mapping with one member. -/
def items? (least : Nat) : Nat → Place → Option (List Node × Place)
  | 0, _ => none
  | bound + 1, p =>
    if p.column < least then none
    else if p.rest.head? = some ']' then some ([], p.advance 1)
    else do
      let (node, adjacent, behind) ← inner? least bound p
      let isMember := isValueMark true adjacent behind
      let (value, next) ← innerValue? least bound adjacent behind
      let item := if isMember then .mapping [(node, value)] else node
      if isMember ∧ behind.line ≠ p.line ∨ next.column < least then none
      else
        match next.rest.head? with
        | some ',' => do
          let (items, p) ← items? least bound (← (next.advance 1).skip? least)
          some (item :: items, p)
        | some ']' => some ([item], next.advance 1)
        | _ => none

/-- The members of a mapping up to its bracket. -/
def members? (least : Nat) : Nat → Place → Option (List (Node × Node) × Place)
  | 0, _ => none
  | bound + 1, p =>
    if p.column < least then none
    else if p.rest.head? = some '\x7d' then some ([], p.advance 1)
    else do
      let (key, adjacent, behind) ← inner? least bound p
      let (value, next) ← innerValue? least bound adjacent behind
      if next.column < least then none
      else
        match next.rest.head? with
        | some ',' => do
          let (members, p) ← members? least bound (← (next.advance 1).skip? least)
          some ((key, value) :: members, p)
        | some '\x7d' => some ([(key, value)], next.advance 1)
        | _ => none

end

/-! ### In blocks -/

/-- The longest key on one line. -/
def maxKeyLength : Nat := 1024

/-- A key in a block and the place of its colon: both stand on one line. -/
def key? (least : Nat) (bound : Nat) (p : Place) : Option (Node × Place) := do
  let (ps, behind) ← properties? least {} 3 p
  if behind.fresh ∧ ¬ps.isEmpty then none
  else do
    let (node, next) ← content? false least ps bound behind
    if next.line = p.line ∧ isValueMark false false next
        ∧ next.column - p.column ≤ maxKeyLength then
      some (node, next)
    else none

mutual

/-- A node in a block: its lines start in column `least` or on the right of it. A sequence may
stand one column further left where it is `flush` with a key, and entries may start only where a
line does, or behind the mark of another entry. -/
def node? (least : Nat) (flush opens : Bool) : Nat → Place → Option (Node × Place)
  | 0, _ => none
  | bound + 1, p =>
    let opens := opens || p.fresh
    if p.isEnd then some (.empty, p)
    else if p.fresh ∧ p.column < least then
      if flush ∧ p.column + 1 = least ∧ p.isMark '-' then do
        let (items, p) ← entries? p.column true bound p
        some (.sequence items, p)
      else some (.empty, p)
    else if opens ∧ p.isMark '-' then do
      let (items, q) ← entries? p.column false bound p
      some (.sequence items, q)
    else if opens ∧ (p.isMark '?' ∨ (key? least bound p).isSome) then do
      let (members, q) ← pairs? p.column bound p
      some (.mapping members, q)
    else if p.rest.head?.any fun c => c = '|' ∨ c = '>' then do
      let (text, q) ← block? least p
      some (.text text, ← q.skip? least)
    else do
      let (ps, q) ← properties? least {} 3 p
      if ps.isEmpty then content? false least ps bound p
      else if q.isEnd ∨ q.fresh ∨ q.rest.head?.any fun c => c = '|' ∨ c = '>' then do
        let (node, q) ← node? least flush false bound q
        let node := match node with
          | .plain text none => .plain text ps.tag
          | node => node
        some (ps.apply node, q)
      else content? false least ps bound q
termination_by structural bound => bound

/-- The entries of a sequence in a column. -/
def entries? (column : Nat) (flush : Bool) : Nat → Place → Option (List Node × Place)
  | 0, _ => none
  | bound + 1, p => do
    let behind := p.advance 1
    let spaces := behind.rest.takeWhile isSpace
    let next ← behind.skip? (column + 1)
    if spaces.contains '\t' ∧ ¬next.fresh ∧ next.isMark '-' then none
    else do
      let (item, next) ← node? (column + 1) false true bound next
      if ¬next.isEnd ∧ next.column = column ∧ next.fresh ∧ next.isMark '-' then do
        let (items, p) ← entries? column flush bound next
        some (item :: items, p)
      else if next.isEnd ∨ (next.fresh ∧ (next.column < column ∨ (flush ∧ next.column = column)))
      then some ([item], next)
      else none
termination_by structural bound => bound

/-- The value behind a colon in a column. -/
def value? (column : Nat) : Nat → Place → Option (Node × Place)
  | 0, _ => none
  | bound + 1, p => do node? (column + 1) true false bound (← valuePlace? (column + 1) p)
termination_by structural bound => bound

/-- The members of a mapping in a column. A key on one line stands before its colon; any other
node is a key behind a question mark. -/
def pairs? (column : Nat) : Nat → Place → Option (List (Node × Node) × Place)
  | 0, _ => none
  | bound + 1, p => do
    let (key, colon) ←
      if p.isMark '?' then do
        node? (column + 1) true true bound (← (p.advance 1).skip? (column + 1))
      else key? (column + 1) bound p
    let hasValue := p.isMark '?' == (colon.fresh && colon.column == column)
      && isValueMark false false colon
    let (value, next) ← if hasValue then value? column bound colon else some (.empty, colon)
    if next.isEnd ∨ (next.fresh ∧ next.column < column) then some ([(key, value)], next)
    else if next.fresh ∧ next.column = column then do
      let (members, p) ← pairs? column bound next
      some ((key, value) :: members, p)
    else none
termination_by structural bound => bound

end

/-! ### Documents -/

/-- The text with one kind of line end, up to a null character. -/
def lines : List Char → List Char
  | [] => []
  | '\r' :: '\n' :: rest => '\n' :: lines rest
  | c :: rest =>
    if c = '\x00' then [] else (if c = '\r' then '\n' else c) :: lines rest

/-- The place behind marks for the end of a document, each alone on its line. `bound` bounds their
number. -/
def skipEnds? : Nat → Place → Option Place
  | 0, _ => none
  | bound + 1, p =>
    if p.column = 0 ∧ Place.isTriple '.' p.rest then
      if (p.advance 3).endsLine then (p.advance 3).skip? 0 >>= skipEnds? bound else none
    else some p

/-- The place behind directives, and whether there are any. `bound` bounds their number. -/
def skipDirectives? (found : Bool) : Nat → Place → Option (Bool × Place)
  | 0, _ => none
  | bound + 1, p =>
    if p.column = 0 ∧ p.rest.head? = some '%' then do
      let line := p.rest.takeWhile (· ≠ '\n')
      skipDirectives? true bound (← (p.advance line.length).skip? 0)
    else some (found, p)

/-- Reads a text with at most one document. No document is an empty mapping. -/
def read? (text : String) : Option Json := do
  let s := lines text.toList
  let bound := 4 * s.length + 4
  let p ← Place.skip? 0 ⟨0, 0, true, s⟩
  let p ← skipEnds? bound p
  let (hasDirectives, p) ← skipDirectives? false bound p
  let isMarked := p.column = 0 ∧ Place.isTriple '-' p.rest
  if hasDirectives ∧ ¬isMarked then none
  else if p.rest.isEmpty then some (.object [])
  else do
    let start ← if isMarked then (p.advance 3).skip? 0 else some p
    let (node, behind) ← node? 0 false false bound start
    let behind ← skipEnds? bound behind
    if behind.rest.isEmpty then do
      let (node, _) ← node.resolve? []
      node.value?
    else none

end SpeechService.Yaml
