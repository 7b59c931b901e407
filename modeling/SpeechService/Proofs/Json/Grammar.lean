import SpeechService.Json.Tree

/-!
# The grammar of JSON

Which bytes spell which tree, said without a reader. Numbers, strings and words are spelled byte by
byte (`Token.Spelled`). A tree is the sequence of its tokens (`Tree.toTokens`), and bytes spell it
when they spell these tokens one after another, with any spaces in front of each (`Spelled`).

A text **begins** with a tree when its first bytes spell it and nothing in the tree is missing
(`Begins`); what is behind is left open.
-/

namespace SpeechService.Json

/-! ### Numbers -/

/-- One or more digits. -/
structure DigitsSpelled (digits : List Char) (s : List UInt8) : Prop where
  ne_nil : s ≠ []
  isDigit : ∀ b ∈ s, Json.isDigit b = true
  eq : digits = s.map byteChar

/-- Nothing, or a point and digits. -/
inductive FractionSpelled : List Char → List UInt8 → Prop
  | none : FractionSpelled [] []
  | point {digits s} (h : DigitsSpelled digits s) : FractionSpelled digits (0x2E :: s)

/-- The sign of an exponent. -/
inductive SignSpelled : Bool → List UInt8 → Prop
  | none : SignSpelled false []
  | plus : SignSpelled false [0x2B]
  | minus : SignSpelled true [0x2D]

/-- Nothing, or a letter, a sign and digits. -/
inductive ExponentSpelled : Option (Bool × List Char) → List UInt8 → Prop
  | none : ExponentSpelled none []
  | some {letter sign s down digits} (hl : letter = charByte 'e' ∨ letter = charByte 'E')
    (hs : SignSpelled down sign) (hd : DigitsSpelled digits s) :
    ExponentSpelled (some (down, digits)) (letter :: (sign ++ s))

namespace Numeral

/-- A number without its sign. No zero stands before another digit. -/
structure UnsignedSpelled (n : Numeral) (s : List UInt8) : Prop where
  parts : ∃ w f e, s = w ++ (f ++ e) ∧ DigitsSpelled n.whole w ∧ FractionSpelled n.fraction f ∧
    ExponentSpelled n.exponent e
  zero : ¬(n.whole.head? = some '0' ∧ 1 < n.whole.length)

/-- The bytes **spell** the number. -/
inductive Spelled : Numeral → List UInt8 → Prop
  | plain {n s} (hn : n.negative = false) (h : UnsignedSpelled n s) : Spelled n s
  | minus {n s} (hn : n.negative = true) (h : UnsignedSpelled n s) : Spelled n (0x2D :: s)

end Numeral

/-! ### Tokens -/

/-- The inside of a string: no controls, and every backslash begins an escape. -/
inductive StringBody : List UInt8 → Prop
  | nil : StringBody []
  | plain {b raw} (hcontrol : ¬b < 0x20) (hquote : b ≠ 0x22) (hslash : b ≠ 0x5C)
    (h : StringBody raw) : StringBody (b :: raw)
  | short {e raw} (he : isShortEscape e = true) (h : StringBody raw) : StringBody (0x5C :: e :: raw)
  | number {a b c d raw}
    (hx : (isHexDigit a && isHexDigit b && isHexDigit c && isHexDigit d) = true)
    (h : StringBody raw) : StringBody (0x5C :: 0x75 :: a :: b :: c :: d :: raw)

/-- The bytes **spell** the token. -/
inductive Token.Spelled : Token → List UInt8 → Prop
  | openBrace : Spelled .openBrace [0x7B]
  | closeBrace : Spelled .closeBrace [0x7D]
  | openBracket : Spelled .openBracket [0x5B]
  | closeBracket : Spelled .closeBracket [0x5D]
  | comma : Spelled .comma [0x2C]
  | colon : Spelled .colon [0x3A]
  | null : Spelled .null [0x6E, 0x75, 0x6C, 0x6C]
  | true : Spelled (.bool true) [0x74, 0x72, 0x75, 0x65]
  | false : Spelled (.bool false) [0x66, 0x61, 0x6C, 0x73, 0x65]
  | number {n s} (h : n.Spelled s) : Spelled (.number n) s
  | string {raw} (h : StringBody raw) : Spelled (.string raw) (0x22 :: (raw ++ [0x22]))

/-- Only spaces. -/
def Spaces (s : List UInt8) : Prop := ∀ b ∈ s, isSpace b = true

/-- The bytes **spell** the tokens one after another, with spaces in front of each. -/
inductive Spelled : List Token → List UInt8 → Prop
  | nil : Spelled [] []
  | cons {t ts w u s} (hw : Spaces w) (ht : t.Spelled u) (h : Spelled ts s) :
    Spelled (t :: ts) (w ++ (u ++ s))

/-! ### Trees -/

namespace Tree

mutual

/-- The **tokens** of a tree. -/
def toTokens : Tree → List Token
  | .missing => []
  | .null => [.null]
  | .bool b => [.bool b]
  | .number n => [.number n]
  | .string raw => [.string raw]
  | .array items _ => .openBracket :: (itemTokens [] items ++ [.closeBracket])
  | .object members _ => .openBrace :: (memberTokens [] members ++ [.closeBrace])

/-- The tokens of items, with commas between them. The first item has `front` in front of it. -/
def itemTokens (front : List Token) : List Tree → List Token
  | [] => []
  | t :: rest => front ++ (t.toTokens ++ itemTokens [.comma] rest)

/-- The tokens of members, with commas between them. The first member has `front` in front of it. -/
def memberTokens (front : List Token) : List (List UInt8 × Tree) → List Token
  | [] => []
  | (raw, t) :: rest =>
    front ++ (.string raw :: .colon :: (t.toTokens ++ memberTokens [.comma] rest))

end

end Tree

/-- The text **begins** with a whole tree, and `rest` is behind it. -/
structure Begins (text : List UInt8) (t : Tree) (rest : List UInt8) : Prop where
  isWhole : t.isWhole = true
  spelled : ∃ s, text = s ++ rest ∧ Spelled t.toTokens s

/-- The text is a **document**: a whole tree, apart from spaces around it. -/
def IsDocument (text : List UInt8) (t : Tree) : Prop := ∃ rest, Begins text t rest ∧ Spaces rest

end SpeechService.Json
