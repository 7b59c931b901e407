import SpeechService.Json.Number

/-!
# JSON tokens

Bytes are cut into tokens. Strings stay as the bytes between their quotes, since only some of them
are ever looked into: escapes have to be well formed, but what they mean, and whether the bytes
are text at all, is asked by `decodeString?`. Where no token can be cut, one token `junk` takes
the place of the rest.
-/

namespace SpeechService.Json

/-- A **token** of JSON text. -/
inductive Token where
  | openBrace
  | closeBrace
  | openBracket
  | closeBracket
  | comma
  | colon
  | null
  | bool (value : Bool)
  | number (numeral : Numeral)
  | string (raw : List UInt8)
  /-- Something that no token starts with. -/
  | junk
deriving DecidableEq, Repr

/-- The character of an ASCII byte. -/
def byteChar (b : UInt8) : Char := Char.ofNat b.toNat

/-- The byte of an ASCII character. -/
def charByte (c : Char) : UInt8 := UInt8.ofNat c.toNat

/-- A space, a tab or a line break. -/
def isSpace (b : UInt8) : Bool := b == 0x20 || b == 0x09 || b == 0x0A || b == 0x0D

/-- A decimal digit. -/
def isDigit (b : UInt8) : Bool := 0x30 ≤ b && b ≤ 0x39

/-- The value of a hexadecimal digit. -/
def hexDigit? (b : UInt8) : Option Nat :=
  if isDigit b then some (b.toNat - 0x30)
  else if 0x61 ≤ b && b ≤ 0x66 then some (b.toNat - 0x61 + 10)
  else if 0x41 ≤ b && b ≤ 0x46 then some (b.toNat - 0x41 + 10)
  else none

/-- A hexadecimal digit. -/
def isHexDigit (b : UInt8) : Bool := (hexDigit? b).isSome

/-- The letters that follow a backslash, other than the one before a number. -/
def isShortEscape (b : UInt8) : Bool :=
  ['"', '\\', '/', 'b', 'f', 'n', 'r', 't'].any fun c => b == charByte c

/-- The bytes up to the closing quote and those behind it. Controls have to be escaped, and every
escape has to be complete. -/
def stringBody? : List UInt8 → Option (List UInt8 × List UInt8)
  | [] => none
  | 0x22 :: rest => some ([], rest)
  | 0x5C :: 0x75 :: a :: b :: c :: d :: rest =>
    if isHexDigit a && isHexDigit b && isHexDigit c && isHexDigit d then
      (stringBody? rest).map fun (raw, tail) => (0x5C :: 0x75 :: a :: b :: c :: d :: raw, tail)
    else none
  | 0x5C :: e :: rest =>
    if isShortEscape e then (stringBody? rest).map fun (raw, tail) => (0x5C :: e :: raw, tail)
    else none
  | b :: rest =>
    if b < 0x20 || b == 0x5C then none
    else (stringBody? rest).map fun (raw, tail) => (b :: raw, tail)

/-- One or more digits at the front, and what is behind them. -/
def digits? (s : List UInt8) : Option (List Char × List UInt8) :=
  if (s.takeWhile isDigit).isEmpty then none
  else some ((s.takeWhile isDigit).map byteChar, s.dropWhile isDigit)

/-- The fraction at the front, if a point stands there. -/
def fraction? : List UInt8 → Option (List Char × List UInt8)
  | 0x2E :: rest => digits? rest
  | s => some ([], s)

/-- The sign at the front, if there is one: whether it is a minus, and what is behind it. -/
def afterSign : List UInt8 → Bool × List UInt8
  | 0x2B :: rest => (false, rest)
  | 0x2D :: rest => (true, rest)
  | s => (false, s)

/-- The exponent at the front, if its letter stands there. -/
def exponent? : List UInt8 → Option (Option (Bool × List Char) × List UInt8)
  | [] => some (none, [])
  | b :: rest =>
    if b == charByte 'e' || b == charByte 'E' then
      (digits? (afterSign rest).2).map fun (digits, tail) =>
        (some ((afterSign rest).1, digits), tail)
    else some (none, b :: rest)

/-- The number at the front, without its sign: no zero stands before another digit, and a point
and an exponent are followed by digits. -/
def unsigned? (negative : Bool) (s : List UInt8) : Option (Numeral × List UInt8) :=
  (digits? s).bind fun (whole, s) =>
    if whole.head? = some '0' ∧ 1 < whole.length then none
    else
      (fraction? s).bind fun (fraction, s) =>
        (exponent? s).map fun (exponent, s) => (⟨negative, whole, fraction, exponent⟩, s)

/-- The number at the front. -/
def numeral? : List UInt8 → Option (Numeral × List UInt8)
  | 0x2D :: rest => unsigned? true rest
  | s => unsigned? false s

/-- A token that starts with the byte `b`, and what is behind it. -/
def token? (b : UInt8) (rest : List UInt8) : Option (Token × List UInt8) :=
  match byteChar b, rest with
  | '\x7b', _ => some (.openBrace, rest)
  | '\x7d', _ => some (.closeBrace, rest)
  | '[', _ => some (.openBracket, rest)
  | ']', _ => some (.closeBracket, rest)
  | ',', _ => some (.comma, rest)
  | ':', _ => some (.colon, rest)
  | '"', _ => (stringBody? rest).map fun (raw, tail) => (.string raw, tail)
  | 'n', 0x75 :: 0x6C :: 0x6C :: tail => some (.null, tail)
  | 't', 0x72 :: 0x75 :: 0x65 :: tail => some (.bool true, tail)
  | 'f', 0x61 :: 0x6C :: 0x73 :: 0x65 :: tail => some (.bool false, tail)
  | c, _ =>
    if c = '-' ∨ isDigit b then (numeral? (b :: rest)).map fun (n, tail) => (.number n, tail)
    else none

theorem length_of_stringBody? {s raw tail : List UInt8} (h : stringBody? s = some (raw, tail)) :
    tail.length < s.length := by
  fun_induction stringBody? s generalizing raw tail with
  | case1 => simp at h
  | case2 rest => simp_all
  | case3 a b c d rest _ ih =>
    obtain ⟨⟨raw', tail'⟩, hs, heq⟩ := Option.map_eq_some_iff.1 h
    have := ih hs
    simp only [Prod.mk.injEq] at heq
    simp only [List.length_cons, ← heq.2]
    omega
  | case4 => simp at h
  | case5 e rest _ _ ih =>
    obtain ⟨⟨raw', tail'⟩, hs, heq⟩ := Option.map_eq_some_iff.1 h
    have := ih hs
    simp only [Prod.mk.injEq] at heq
    simp only [List.length_cons, ← heq.2]
    omega
  | case6 => simp at h
  | case7 => simp at h
  | case8 b rest _ _ _ _ ih =>
    obtain ⟨⟨raw', tail'⟩, hs, heq⟩ := Option.map_eq_some_iff.1 h
    have := ih hs
    simp only [Prod.mk.injEq] at heq
    simp only [List.length_cons, ← heq.2]
    omega

theorem length_of_digits? {s tail : List UInt8} {digits : List Char}
    (h : digits? s = some (digits, tail)) : tail.length < s.length := by
  unfold digits? at h
  split at h
  · simp at h
  · rename_i hne
    simp only [Option.some.injEq, Prod.mk.injEq] at h
    have hlen := congrArg List.length (List.takeWhile_append_dropWhile (p := isDigit) (l := s))
    rw [List.length_append, h.2] at hlen
    have : 0 < (s.takeWhile isDigit).length := by
      cases hw : s.takeWhile isDigit with
      | nil => simp [hw] at hne
      | cons => simp
    omega

theorem length_of_fraction? {s tail : List UInt8} {digits : List Char}
    (h : fraction? s = some (digits, tail)) : tail.length ≤ s.length := by
  unfold fraction? at h
  split at h
  · have := length_of_digits? h
    simp only [List.length_cons]
    omega
  · simp only [Option.some.injEq, Prod.mk.injEq] at h
    simp [h.2]

theorem length_afterSign (s : List UInt8) : (afterSign s).2.length ≤ s.length := by
  unfold afterSign
  split <;> simp

theorem length_of_exponent? {s tail : List UInt8} {e : Option (Bool × List Char)}
    (h : exponent? s = some (e, tail)) : tail.length ≤ s.length := by
  unfold exponent? at h
  split at h
  · simp only [Option.some.injEq, Prod.mk.injEq] at h
    simp [← h.2]
  · rename_i b rest
    split at h
    · obtain ⟨⟨digits, tail'⟩, hd, heq⟩ := Option.map_eq_some_iff.1 h
      have h1 := length_of_digits? hd
      have h2 := length_afterSign rest
      simp only [Prod.mk.injEq] at heq
      simp only [List.length_cons, ← heq.2]
      omega
    · simp only [Option.some.injEq, Prod.mk.injEq] at h
      simp [← h.2]

theorem length_of_unsigned? {s tail : List UInt8} {negative : Bool} {n : Numeral}
    (h : unsigned? negative s = some (n, tail)) : tail.length < s.length := by
  obtain ⟨⟨whole, s₁⟩, h₁, h⟩ := Option.bind_eq_some_iff.1 h
  simp only at h
  split at h
  · simp at h
  · obtain ⟨⟨fraction, s₂⟩, h₂, h⟩ := Option.bind_eq_some_iff.1 h
    obtain ⟨⟨exponent, s₃⟩, h₃, heq⟩ := Option.map_eq_some_iff.1 h
    have := length_of_digits? h₁
    have := length_of_fraction? h₂
    have := length_of_exponent? h₃
    simp only [Prod.mk.injEq] at heq
    dsimp only at *
    rw [← heq.2]
    omega

theorem length_of_numeral? {s tail : List UInt8} {n : Numeral} (h : numeral? s = some (n, tail)) :
    tail.length < s.length := by
  unfold numeral? at h
  split at h
  · have := length_of_unsigned? h
    simp only [List.length_cons]
    omega
  · exact length_of_unsigned? h

/-- What is behind a token is never longer than what was behind its first byte. -/
theorem length_of_token? {b : UInt8} {rest tail : List UInt8} {t : Token}
    (h : token? b rest = some (t, tail)) : tail.length ≤ rest.length := by
  unfold token? at h
  split at h <;>
    try (simp only [Option.some.injEq, Prod.mk.injEq] at h
         simp only [← h.2, List.length_cons]
         omega)
  · obtain ⟨⟨raw, tail'⟩, hs, heq⟩ := Option.map_eq_some_iff.1 h
    have := length_of_stringBody? hs
    simp only [Prod.mk.injEq] at heq
    rw [← heq.2]
    omega
  · split at h
    · obtain ⟨⟨n, tail'⟩, hn, heq⟩ := Option.map_eq_some_iff.1 h
      have := length_of_numeral? hn
      simp only [Prod.mk.injEq] at heq
      simp only [List.length_cons] at this
      rw [← heq.2]
      omega
    · simp at h

/-- The tokens of a text. -/
def tokens : List UInt8 → List Token
  | [] => []
  | b :: rest =>
    if isSpace b then tokens rest
    else
      match h : token? b rest with
      | none => [.junk]
      | some (t, tail) =>
        have := length_of_token? h
        t :: tokens tail
termination_by s => s.length

/-- The number that four hexadecimal digits stand for. -/
def hexValue (a b c d : UInt8) : Nat :=
  [a, b, c, d].foldl (fun n x => 16 * n + (hexDigit? x).getD 0) 0

/-- The character that a letter stands for behind a backslash. -/
def shortEscape (b : UInt8) : Char :=
  match byteChar b with
  | 'b' => Char.ofNat 8
  | 'f' => Char.ofNat 12
  | 'n' => '\n'
  | 'r' => '\r'
  | 't' => '\t'
  | c => c

/-- The bytes of a character. -/
def charBytes (c : Char) : List UInt8 := String.utf8EncodeChar c

/-- The bytes that the inside of a string stands for. A number names a character or, in a pair,
the two halves of one; a half alone names nothing. -/
def unescape? : List UInt8 → Option (List UInt8)
  | [] => some []
  | 0x5C :: 0x75 :: a :: b :: c :: d :: rest =>
    let high := hexValue a b c d
    if 0xD800 ≤ high ∧ high < 0xDC00 then
      match rest with
      | 0x5C :: 0x75 :: a' :: b' :: c' :: d' :: rest' =>
        let low := hexValue a' b' c' d'
        if 0xDC00 ≤ low ∧ low < 0xE000 then
          (unescape? rest').map
            (charBytes (Char.ofNat (0x10000 + (high - 0xD800) * 0x400 + (low - 0xDC00))) ++ ·)
        else none
      | _ => none
    else if 0xDC00 ≤ high ∧ high < 0xE000 then none
    else (unescape? rest).map (charBytes (Char.ofNat high) ++ ·)
  | 0x5C :: e :: rest => (unescape? rest).map (charBytes (shortEscape e) ++ ·)
  | b :: rest => (unescape? rest).map (b :: ·)

/-- The text that bytes encode. -/
def textOfBytes? (bytes : List UInt8) : Option String :=
  String.fromUTF8? ⟨bytes.toArray⟩

/-- The text inside a string, if it is one. -/
def decodeString? (raw : List UInt8) : Option String := (unescape? raw).bind textOfBytes?

end SpeechService.Json
