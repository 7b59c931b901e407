/-!
# Places in YAML documents

In YAML the place of a word counts: what belongs together stands in one column, and what is inside
stands further right. `Place.skip?` leads from behind one word to the next one, over blanks, line
ends and comments.
-/

namespace SpeechService.Yaml

/-- A space or a tab. -/
def isSpace (c : Char) : Bool := c == ' ' || c == '\t'

/-- Nothing, a blank or a line end comes next. -/
def isApart (s : List Char) : Bool := s.head?.all fun c => isSpace c || c == '\n'

/-- A **place** in a document, and the text from there on. -/
structure Place where
  line : Nat
  column : Nat
  /-- Only blanks come before it on its line. -/
  fresh : Bool
  rest : List Char

namespace Place

/-- The place behind so many characters of the same line. -/
def advance (p : Place) (n : Nat) : Place :=
  { p with column := p.column + n, fresh := false, rest := p.rest.drop n }

/-- The word at this place is a mark of one character, which something apart has to follow. -/
def isMark (mark : Char) (p : Place) : Bool :=
  match p.rest with
  | c :: rest => c == mark && isApart rest
  | [] => false

/-- Three times a character stand apart at the front. -/
def isTriple (mark : Char) : List Char → Bool
  | a :: b :: c :: rest => a == mark && b == mark && c == mark && isApart rest
  | _ => false

/-- The document ends here, or a mark in the first column ends it. -/
def isEnd (p : Place) : Bool :=
  p.rest.isEmpty || (p.column == 0 && (isTriple '-' p.rest || isTriple '.' p.rest))

/-- Nothing comes on the line any more but a comment. -/
def endsLine (p : Place) : Bool :=
  match p.rest.dropWhile isSpace with
  | [] => true
  | c :: _ => c == '\n' || (c == '#' && p.rest.head?.any isSpace)

/-- What comes before on the line. -/
inductive Before where
  /-- A word, right before this. -/
  | word
  /-- A word and a blank. -/
  | blank
  /-- Only blanks. -/
  | indentation
  /-- A tab where the line has to be indented: nothing but a comment may follow. -/
  | tab
  /-- A comment. -/
  | comment
deriving DecidableEq

/-- The place of the next word; see `skip?`. -/
def skipFrom? (least line column : Nat) (fresh : Bool) (before : Before) :
    List Char → Option Place
  | [] => some ⟨line, column, fresh, []⟩
  | c :: rest =>
    let next := fun before => skipFrom? least line (column + 1) fresh before rest
    if c = '\n' then skipFrom? least (line + 1) 0 true .indentation rest
    else if before = .comment then next .comment
    else if c = '\t' ∧ before = .indentation ∧ column < least then next .tab
    else if isSpace c then next (if before = .word then .blank else before)
    else if before = .tab ∧ c ≠ '#' then none
    else if c = '#' then if before = .word then none else next .comment
    else some ⟨line, column, fresh, c :: rest⟩

/-- The place of the next word. A comment has to stand apart from the word before it, and on the
left of column `least` no tab may come before a word. -/
def skip? (least : Nat) (p : Place) : Option Place :=
  skipFrom? least p.line p.column p.fresh (if p.fresh then .indentation else .word) p.rest

end Place

end SpeechService.Yaml
