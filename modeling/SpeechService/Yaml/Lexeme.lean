import SpeechService.Text.Base
import SpeechService.Yaml.Place

/-!
# Texts of YAML

The ways in which YAML writes a text: plain, between quotes of two kinds, and as a block of lines
under a mark. Plain and quoted texts may go on in further lines: one line end between two lines
becomes a space, and of more line ends the first one is left out. A block keeps its line ends, or
joins its lines in the same way except where they start with a blank.

A reader starts at a place and gives the text and the place behind it; `least` is the column on
whose left no line of the text may start.
-/

namespace SpeechService.Yaml

/-- A character that belongs to brackets. -/
def isBracketChar (c : Char) : Bool :=
  c == ',' || c == '[' || c == ']' || c == '\x7b' || c == '\x7d'

/-- What comes between two parts of a text with so many line ends between them. -/
def joint (breaks : Nat) : List Char :=
  if breaks = 1 then [' '] else List.replicate (breaks - 1) '\n'

/-! ### Plain texts -/

/-- A plain text ends before this character. -/
def endsPlain (inBrackets : Bool) (c : Char) (rest : List Char) : Bool :=
  (c == ':' && (isApart rest || (inBrackets && rest.head?.any isBracketChar)))
    || (inBrackets && isBracketChar c)

/-- The part of a plain text on its line, without the blanks at the end. -/
def plainLine (inBrackets : Bool) (afterBlank : Bool) : List Char → List Char
  | [] => []
  | c :: rest =>
    if c = '\n' ∨ (c = '#' ∧ afterBlank) ∨ endsPlain inBrackets c rest then []
    else
      match isSpace c, plainLine inBrackets (isSpace c) rest with
      | true, [] => []
      | _, text => c :: text

/-- The next line that is not blank: the number of line ends before it, and the place of its first
word. There is none where a tab stands on the left of `least`. -/
def nextLine? (least breaks line column : Nat) : List Char → Option (Nat × Place)
  | [] => none
  | c :: rest =>
    if c = '\n' then nextLine? least (breaks + 1) (line + 1) 0 rest
    else if c = '\t' ∧ 0 < breaks ∧ column < least then
      if isApart (rest.dropWhile isSpace) then nextLine? least breaks line (column + 1) rest
      else none
    else if isSpace c then nextLine? least breaks line (column + 1) rest
    else some (breaks, ⟨line, column, 0 < breaks, c :: rest⟩)

/-- A plain text and the place behind it. `bound` bounds the number of its lines. -/
def plain (inBrackets : Bool) (least : Nat) : Nat → Place → List Char × Place
  | 0, p => ([], p)
  | bound + 1, p =>
    let text := plainLine inBrackets false p.rest
    let behind := p.advance text.length
    match nextLine? least 0 behind.line behind.column behind.rest with
    | some (breaks, next) =>
      let goesOn := 0 < breaks ∧ (inBrackets ∨ least ≤ next.column) ∧ ¬next.isEnd
        ∧ next.rest.head? ≠ some '#'
        ∧ next.rest.head?.any fun c => !endsPlain inBrackets c (next.rest.drop 1)
      if goesOn then
        let (more, behind) := plain inBrackets least bound next
        (text ++ joint breaks ++ more, behind)
      else (text, behind)
    | none => (text, behind)

/-- A plain text may start here. -/
def startsPlain (inBrackets : Bool) : List Char → Bool
  | [] => false
  | c :: rest =>
    if c = '-' ∨ c = '?' ∨ c = ':' then
      !isApart rest && !(inBrackets && rest.head?.any isBracketChar)
    else if c = '|' ∨ c = '>' then inBrackets
    else
      !isBracketChar c && c != '#' && c != '&' && c != '*' && c != '!' && c != '\x27' && c != '"'
        && c != '%' && c != '@' && c != '\x60'

/-! ### Quoted texts -/

/-- The character that a letter behind a backslash stands for. -/
def escape? : Char → Option Char
  | '0' => some '\x00'
  | 'a' => some '\x07'
  | 'b' => some '\x08'
  | 't' | '\t' => some '\t'
  | 'n' => some '\n'
  | 'v' => some '\x0b'
  | 'f' => some '\x0c'
  | 'r' => some '\r'
  | 'e' => some '\x1b'
  | ' ' => some ' '
  | '"' => some '"'
  | '/' => some '/'
  | '\\' => some '\\'
  | 'N' => some '\u0085'
  | '_' => some '\u00a0'
  | 'L' => some '\u2028'
  | 'P' => some '\u2029'
  | _ => none

/-- The number of hexadecimal digits behind a letter that names a character by its number. -/
def escapeDigits? : Char → Option Nat
  | 'x' => some 2
  | 'u' => some 4
  | 'U' => some 8
  | _ => none

/-- The place where a quoted text goes on behind line ends, and their number. -/
def quotedLine? (least breaks line column : Nat) : List Char → Option (Nat × Place)
  | [] => none
  | c :: rest =>
    if c = '\n' then quotedLine? least (breaks + 1) (line + 1) 0 rest
    else if c = '\t' ∧ column < least then none
    else if isSpace c then quotedLine? least breaks line (column + 1) rest
    else
      let p : Place := ⟨line, column, true, c :: rest⟩
      if column < least ∨ p.isEnd then none else some (breaks, p)

/-- A text up to its quote; `escaping` tells whether backslashes count. `bound` bounds its
length. -/
def quoted? (quote : Char) (escaping : Bool) (least : Nat) :
    Nat → Place → Option (List Char × Place)
  | 0, _ => none
  | bound + 1, p => do
    let (part, p) ← match p.rest with
      | [] => none
      | c :: rest =>
        let spaces := p.rest.takeWhile isSpace
        if c = quote then
          if !escaping ∧ rest.head? = some quote then some (some [quote], p.advance 2)
          else some (none, p.advance 1)
        else if (p.rest.drop spaces.length).head? = some '\n' then do
          let (breaks, p) ← quotedLine? least 0 p.line p.column (p.rest.drop spaces.length)
          some (some (joint breaks), p)
        else if isSpace c then some (some spaces, p.advance spaces.length)
        else if escaping ∧ c = '\\' then
          match rest with
          | '\n' :: _ => do
            let (breaks, p) ← quotedLine? least 0 p.line p.column rest
            some (some (List.replicate (breaks - 1) '\n'), p)
          | e :: digits => do
            let n := (escapeDigits? e).getD 0
            let x ← if n = 0 then escape? e else
              if n ≤ digits.length then Text.scalar? (digits.take n) else none
            some (some [x], p.advance (n + 2))
          | [] => none
        else some (some [c], p.advance 1)
    match part with
    | none => some ([], p)
    | some part => (quoted? quote escaping least bound p).map fun (text, p) => (part ++ text, p)

/-! ### Blocks of lines -/

/-- What happens to the line ends at the end of a block. -/
inductive Chomping where
  /-- One is left. -/
  | clip
  /-- None is left. -/
  | strip
  /-- All are left. -/
  | keep
deriving DecidableEq

/-- The spaces and line ends in front of the next line of a block that is not blank. At most
`indent` spaces of a line are taken, if that is known. Gives the number of line ends, the greatest
number of spaces, and the place. -/
def blockIndent (indent : Option Nat) (breaks most line column : Nat) :
    List Char → Nat × Nat × Place
  | [] => (breaks, max most column, ⟨line, column, true, []⟩)
  | c :: rest =>
    if c = ' ' ∧ indent.all (column < ·) then
      blockIndent indent breaks most line (column + 1) rest
    else if c = '\n' then blockIndent indent (breaks + 1) (max most column) (line + 1) 0 rest
    else (breaks, max most column, ⟨line, column, true, c :: rest⟩)

/-- What the lines of a block have said so far. -/
structure BlockText where
  /-- The text, the last part first. -/
  parts : List (List Char)
  /-- A line end stands behind the last line. -/
  broken : Bool
  /-- The number of further line ends. -/
  breaks : Nat
  /-- The last line starts with a blank. -/
  blank : Bool

/-- The lines of a block. `bound` bounds their number. -/
def blockLines (folds : Bool) (indent : Nat) (t : BlockText) : Nat → Place → BlockText × Place
  | 0, p => (t, p)
  | bound + 1, p =>
    if p.column ≠ indent ∨ p.isEnd then (t, p)
    else
      let blank := p.rest.head?.any isSpace
      let more := List.replicate t.breaks '\n'
      let between :=
        if folds ∧ t.broken ∧ ¬t.blank ∧ ¬blank then (if t.breaks = 0 then [' '] else more)
        else if t.broken then '\n' :: more else more
      let text := p.rest.takeWhile (· ≠ '\n')
      let parts := text :: between :: t.parts
      match p.rest.drop text.length with
      | [] => (⟨parts, false, 0, blank⟩, p.advance text.length)
      | _ :: rest =>
        let (breaks, _, p) := blockIndent (some indent) 0 0 (p.line + 1) 0 rest
        blockLines folds indent ⟨parts, true, breaks, blank⟩ bound p

/-- The line ends that are left at the end of a block. -/
def blockEnd (chomping : Chomping) (indent : Nat) (t : BlockText) (p : Place) : List Char :=
  if chomping = .strip then []
  else
    (if t.broken then ['\n'] else [])
      ++ (if p.rest.isEmpty ∧ max indent 1 ≤ p.column then ['\n'] else [])
      ++ (if chomping = .keep then List.replicate t.breaks '\n' else [])

/-- What the mark of a block says: the number of spaces in front of its lines, beyond those that
are due, and what happens at its end. -/
def blockMark? : List Char → Option (Nat × Chomping × Nat)
  | '+' :: rest => blockDigit .keep rest
  | '-' :: rest => blockDigit .strip rest
  | c :: rest =>
    if c = '0' then none
    else if c.isDigit then
      let n := c.toNat - '0'.toNat
      match rest with
      | '+' :: _ => some (n, .keep, 2)
      | '-' :: _ => some (n, .strip, 2)
      | _ => some (n, .clip, 1)
    else some (0, .clip, 0)
  | [] => some (0, .clip, 0)
where
  /-- A digit behind the sign for the end. -/
  blockDigit (chomping : Chomping) : List Char → Option (Nat × Chomping × Nat)
    | c :: _ =>
      if c = '0' then none
      else if c.isDigit then some (c.toNat - '0'.toNat, chomping, 2)
      else some (0, chomping, 1)
    | [] => some (0, chomping, 1)

/-- The text of a block, from its mark on. -/
def block? (least : Nat) (p : Place) : Option (List Char × Place) := do
  let folds := p.rest.head? = some '>'
  let (extra, chomping, taken) ← blockMark? (p.rest.drop 1)
  let behind := p.advance (1 + taken)
  match if behind.endsLine then some (behind.rest.dropWhile (· ≠ '\n')) else none with
  | none => none
  | some [] => some ([], behind.advance behind.rest.length)
  | some (_ :: lines) =>
    if lines.head? = some '\t' then none
    else
      let known := if extra = 0 then none else some (least - 1 + extra)
      let (breaks, most, first) := blockIndent known 0 0 (p.line + 1) 0 lines
      let indent := known.getD (max most least)
      if first.rest.isEmpty then
        let text := match chomping with
          | .strip => []
          | .clip => ['\n']
          | .keep => List.replicate (max breaks 1) '\n'
        some (text, first)
      else if first.column < indent ∧ least ≤ first.column then none
      else
        let (t, behind) := blockLines folds indent ⟨[], false, breaks, false⟩ lines.length first
        some (t.parts.reverse.flatten ++ blockEnd chomping indent t behind, behind)

end SpeechService.Yaml
