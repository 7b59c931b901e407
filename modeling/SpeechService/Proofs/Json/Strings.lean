import SpeechService.Proofs.Json.Tokens

/-!
# What strings say

The inside of a string says characters: each one stands there as it is, behind a backslash, or as
its number (`Json.Says`). `Json.decodeString?` gives the text that a string says, and gives none
where it says nothing, be it for half a pair or for bytes that are no characters
(`Json.decodeString?_eq_some_iff`). In a text that begins with a tree this holds of every string of
the tree, be it a key or a value (`Json.Begins.decodeString?_eq_some_iff`).
-/

namespace SpeechService.Json

/-- The number is that of a first half of a pair. -/
def IsHigh (n : Nat) : Prop := 0xD800 ≤ n ∧ n < 0xDC00

/-- The number is that of a second half of a pair. -/
def IsLow (n : Nat) : Prop := 0xDC00 ≤ n ∧ n < 0xE000

/-- All four bytes are hexadecimal digits. -/
def areHexDigits (a b c d : UInt8) : Bool :=
  isHexDigit a && isHexDigit b && isHexDigit c && isHexDigit d

/-- The bytes behind a backslash **stand for** the character. -/
inductive Escape : List UInt8 → Char → Prop
  | short {e} (he : isShortEscape e = true) : Escape [e] (shortEscape e)
  | number {a b c d} (hx : areHexDigits a b c d = true)
    (hhigh : ¬IsHigh (hexValue a b c d)) (hlow : ¬IsLow (hexValue a b c d)) :
    Escape [0x75, a, b, c, d] (Char.ofNat (hexValue a b c d))
  /-- A character beyond the first plane has two numbers. -/
  | pair {a b c d a' b' c' d'} (hx : areHexDigits a b c d = true)
    (hx' : areHexDigits a' b' c' d' = true) (hhigh : IsHigh (hexValue a b c d))
    (hlow : IsLow (hexValue a' b' c' d')) :
    Escape [0x75, a, b, c, d, 0x5C, 0x75, a', b', c', d']
      (Char.ofNat (0x10000 + (hexValue a b c d - 0xD800) * 0x400
        + (hexValue a' b' c' d' - 0xDC00)))

/-- The inside of a string **says** characters. -/
inductive Says : List UInt8 → List Char → Prop
  | nil : Says [] []
  | plain {c raw s} (hcontrol : 0x20 ≤ c.toNat) (hquote : c ≠ '"') (hslash : c ≠ '\\')
    (h : Says raw s) : Says (charBytes c ++ raw) (c :: s)
  | escape {u c raw s} (hu : Escape u c) (h : Says raw s) : Says (0x5C :: (u ++ raw)) (c :: s)

/-! ### Bytes of characters -/

/-- A text is given by exactly the bytes of its characters. -/
theorem textOfBytes?_eq_some_iff {bytes : List UInt8} {text : String} :
    textOfBytes? bytes = some text ↔ bytes = text.toList.flatMap charBytes := by
  have hbytes : (⟨bytes.toArray⟩ : ByteArray) = bytes.toByteArray :=
    ByteArray.ext List.data_toByteArray.symm
  have htext : text.toByteArray = (text.toList.flatMap charBytes).toByteArray :=
    String.utf8Encode_toList.symm
  rw [textOfBytes?, hbytes, String.fromUTF8?, ← List.toByteArray_inj, ← htext]
  constructor
  · intro h
    split at h
    · rw [← Option.some.inj h]
      rfl
    · cases h
  · intro h
    rw [dif_pos (h ▸ text.isValidUTF8)]
    exact congrArg some (String.toByteArray_inj.mp h)

/-- The first byte of a character tells it from those that go on with it. -/
theorem exists_charBytes_eq_cons (c : Char) :
    ∃ b more, charBytes c = b :: more ∧ b.IsUTF8FirstByte ∧ ∀ k ∈ more, ¬k.IsUTF8FirstByte := by
  obtain ⟨b, more, hbytes⟩ := List.exists_cons_of_ne_nil (String.utf8EncodeChar_ne_nil (c := c))
  have hfirst (i : Nat) (hi : i < (b :: more).length) :
      ((b :: more)[i]).IsUTF8FirstByte ↔ i = 0 := by
    simp only [← hbytes]
    exact UInt8.isUTF8FirstByte_getElem_utf8EncodeChar
  refine ⟨b, more, hbytes, (hfirst 0 (Nat.zero_lt_succ _)).mpr rfl, fun k hk => ?_⟩
  obtain ⟨i, hi, rfl⟩ := List.getElem_of_mem hk
  exact mt (hfirst (i + 1) (Nat.succ_lt_succ hi)).mp (Nat.succ_ne_zero i)

/-- No character begins with another one. -/
theorem eq_of_charBytes_append {c d : Char} {s t : List UInt8}
    (h : charBytes c ++ s = charBytes d ++ t) : c = d ∧ s = t := by
  have hdecode (c : Char) (s : List UInt8) :
      ((charBytes c ++ s).toByteArray).utf8DecodeChar? 0 = some c := by
    rw [List.toByteArray_append]
    exact ByteArray.utf8DecodeChar?_utf8EncodeChar_append
  obtain rfl : c = d := Option.some.inj ((hdecode c s).symm.trans (h ▸ hdecode d t))
  exact ⟨rfl, List.append_cancel_left h⟩

theorem exists_cons_of_flatMap {c : Char} {text : List Char} {bytes : List UInt8}
    (h : text.flatMap charBytes = charBytes c ++ bytes) :
    ∃ rest, text = c :: rest ∧ bytes = rest.flatMap charBytes := by
  cases text with
  | nil => exact absurd h.symm (by simp [charBytes])
  | cons d rest =>
    obtain ⟨rfl, hrest⟩ := eq_of_charBytes_append h
    exact ⟨rest, rfl, hrest.symm⟩

/-! ### Escapes -/

variable {raw rest u bytes : List UInt8} {c : Char}

theorem unescape?_cons_of_ne {b : UInt8} (hb : b ≠ 0x5C) (raw : List UInt8) :
    unescape? (b :: raw) = (unescape? raw).map (b :: ·) := by
  rw [unescape?.eq_def]
  split
  · next heq => cases heq
  · next heq => exact absurd (List.cons.inj heq).1 hb
  · next heq => exact absurd (List.cons.inj heq).1 hb
  · next heq =>
    obtain ⟨rfl, rfl⟩ := List.cons.inj heq
    rfl

theorem unescape?_append_of_ne (hu : ∀ b ∈ u, b ≠ 0x5C) (raw : List UInt8) :
    unescape? (u ++ raw) = (unescape? raw).map (u ++ ·) := by
  induction u with
  | nil => simp
  | cons b u ih =>
    obtain ⟨hb, hu⟩ := List.forall_mem_cons.mp hu
    rw [List.cons_append, unescape?_cons_of_ne hb, ih hu, Option.map_map]
    rfl

theorem ne_u_of_isShortEscape {e : UInt8} (he : isShortEscape e = true) : e ≠ 0x75 := by
  rintro rfl
  exact absurd he (by decide)

theorem unescape?_escape (hu : Escape u c) (raw : List UInt8) :
    unescape? (0x5C :: (u ++ raw)) = (unescape? raw).map (charBytes c ++ ·) := by
  cases hu with
  | @short e he =>
    rw [List.singleton_append, unescape?.eq_def]
    split
    · next heq => cases heq
    · next heq =>
      exact absurd (List.cons.inj (List.cons.inj heq).2).1 (ne_u_of_isShortEscape he)
    · next heq =>
      obtain ⟨rfl, rfl⟩ := List.cons.inj (List.cons.inj heq).2
      rfl
    · next hshort heq =>
      obtain ⟨rfl, rfl⟩ := List.cons.inj heq
      exact absurd rfl (hshort e raw rfl)
  | number hx hhigh hlow =>
    rw [unescape?.eq_def]
    exact (if_neg hhigh).trans (if_neg hlow)
  | pair hx hx' hhigh hlow =>
    rw [unescape?.eq_def]
    exact (if_pos hhigh).trans (if_pos hlow)

/-- **Escapes.** Behind a backslash an escape stands, if anything is said there. -/
theorem exists_escape (hraw : StringBody (0x5C :: rest))
    (h : unescape? (0x5C :: rest) = some bytes) :
    ∃ u c raw, rest = u ++ raw ∧ Escape u c ∧ StringBody raw := by
  cases hraw with
  | plain _ _ hslash => exact absurd rfl hslash
  | short he hraw => exact ⟨[_], _, _, rfl, .short he, hraw⟩
  | @number a b c d raw hx hraw =>
    -- A high surrogate needs a low one behind it, and a low one cannot come first.
    by_cases hhigh : IsHigh (hexValue a b c d)
    · rw [unescape?.eq_def] at h
      replace h := (if_pos hhigh).symm.trans h
      dsimp only at h
      split at h
      · next a' b' c' d' raw =>
        split at h
        · next hlow =>
          cases hraw with
          | plain _ _ hslash => exact absurd rfl hslash
          | short he => exact absurd rfl (ne_u_of_isShortEscape he)
          | number hx' hraw =>
            exact ⟨[0x75, a, b, c, d, 0x5C, 0x75, a', b', c', d'], _, raw, rfl,
              .pair hx hx' hhigh hlow, hraw⟩
        · cases h
      · cases h
    · by_cases hlow : IsLow (hexValue a b c d)
      · rw [unescape?.eq_def] at h
        replace h := ((if_neg hhigh).trans (if_pos hlow)).symm.trans h
        cases h
      · exact ⟨[0x75, a, b, c, d], _, raw, rfl, .number hx hhigh hlow, hraw⟩

/-! ### Characters as they are -/

theorem StringBody.of_cons {b : UInt8} (hb : b ≠ 0x5C) (h : StringBody (b :: raw)) :
    ¬b < 0x20 ∧ b ≠ 0x22 ∧ StringBody raw := by
  cases h with
  | plain hcontrol hquote _ hraw => exact ⟨hcontrol, hquote, hraw⟩
  | short => exact absurd rfl hb
  | number => exact absurd rfl hb

/-- Bytes that go on with a character stand as they are. -/
theorem exists_append_of_unescape? {more : List UInt8} (hraw : StringBody raw)
    (hmore : ∀ k ∈ more, ¬k.IsUTF8FirstByte) (h : unescape? raw = some (more ++ bytes)) :
    ∃ raw', raw = more ++ raw' ∧ StringBody raw' ∧ unescape? raw' = some bytes := by
  induction more generalizing raw with
  | nil => exact ⟨raw, rfl, hraw, h⟩
  | cons k more ih =>
    obtain ⟨hk, hothers⟩ := List.forall_mem_cons.mp hmore
    cases raw with
    | nil => cases h
    | cons b raw =>
      by_cases hb : b = 0x5C
      · -- An escape gives a character from its first byte on.
        subst hb
        obtain ⟨u, c, raw, rfl, hu, -⟩ := exists_escape hraw h
        rw [unescape?_escape hu] at h
        obtain ⟨tail, -, htail⟩ := Option.map_eq_some_iff.mp h
        obtain ⟨first, others, hbytes, hfirst, -⟩ := exists_charBytes_eq_cons c
        rw [hbytes] at htail
        exact absurd ((List.cons.inj htail).1 ▸ hfirst) hk
      · rw [unescape?_cons_of_ne hb] at h
        obtain ⟨tail, htail, heq⟩ := Option.map_eq_some_iff.mp h
        obtain ⟨rfl, rfl⟩ := List.cons.inj heq
        obtain ⟨raw', rfl, hraw', hbytes⟩ := ih (hraw.of_cons hb).2.2 hothers htail
        exact ⟨raw', rfl, hraw', hbytes⟩

theorem charBytes_of_lt (h : c.toNat < 0x80) : charBytes c = [UInt8.ofNat c.toNat] :=
  if_pos (Nat.le_of_lt_succ h)

/-- A character is told from its first byte where this byte is one character alone. -/
theorem eq_of_charBytes_eq_cons {d : Char} {b : UInt8} {more : List UInt8}
    (hc : charBytes c = b :: more) (hd : charBytes d = [b]) : c = d := by
  have happend : charBytes c ++ [] = charBytes d ++ more := by simp [hc, hd]
  exact (eq_of_charBytes_append happend).1

theorem ne_slash_of_mem_charBytes (hslash : c ≠ '\\') : ∀ b ∈ charBytes c, b ≠ 0x5C := by
  obtain ⟨first, more, hbytes, hfirst, hmore⟩ := exists_charBytes_eq_cons c
  rw [hbytes]
  refine List.forall_mem_cons.mpr ⟨?_, fun k hk => ?_⟩
  · rintro rfl
    exact hslash (eq_of_charBytes_eq_cons hbytes rfl)
  · rintro rfl
    exact hmore _ hk (.inl rfl)

/-! ### What is read -/

theorem unescape?_of_says {text : List Char} (h : Says raw text) :
    unescape? raw = some (text.flatMap charBytes) := by
  induction h with
  | nil => rfl
  | plain _ _ hslash _ ih =>
    rw [unescape?_append_of_ne (ne_slash_of_mem_charBytes hslash), ih, Option.map_some,
      List.flatMap_cons]
  | escape hu _ ih => rw [unescape?_escape hu, ih, Option.map_some, List.flatMap_cons]

/-- A first byte that is no control, quote or backslash begins a character that is none either. -/
theorem Says.of_charBytes {b : UInt8} {more : List UInt8} {text : List Char}
    (hbytes : charBytes c = b :: more) (hcontrol : ¬b < 0x20) (hquote : b ≠ 0x22)
    (hslash : b ≠ 0x5C) (h : Says raw text) : Says (charBytes c ++ raw) (c :: text) := by
  -- A character below a space, a quote or a backslash would have had that byte itself.
  refine .plain (Nat.not_lt.mp fun hlow => ?_) ?_ ?_ h
  · have hascii : charBytes c = [UInt8.ofNat c.toNat] := charBytes_of_lt (by omega)
    obtain rfl : b = UInt8.ofNat c.toNat := (List.cons.inj (hbytes.symm.trans hascii)).1
    refine hcontrol (UInt8.lt_iff_toNat_lt.mpr ?_)
    rw [UInt8.toNat_ofNat_of_lt' (Nat.lt_trans hlow (by decide))]
    exact hlow
  · rintro rfl
    exact hquote (List.cons.inj hbytes).1.symm
  · rintro rfl
    exact hslash (List.cons.inj hbytes).1.symm

theorem says_of_unescape? {text : List Char} (hraw : StringBody raw)
    (h : unescape? raw = some (text.flatMap charBytes)) : Says raw text := by
  -- A character may take several bytes at once, so that the induction is on the length.
  induction hn : raw.length using Nat.strongRecOn generalizing raw text with
  | ind n ih =>
    cases raw with
    | nil =>
      cases text with
      | nil => exact .nil
      | cons c text =>
        obtain ⟨b, more, hbytes, -⟩ := exists_charBytes_eq_cons c
        have hcons := Option.some.inj h
        rw [List.flatMap_cons, hbytes] at hcons
        cases hcons
    | cons b rest =>
      rw [List.length_cons] at hn
      by_cases hb : b = 0x5C
      · subst hb
        obtain ⟨u, c, raw, rfl, hu, hraw⟩ := exists_escape hraw h
        rw [unescape?_escape hu] at h
        obtain ⟨tail, htail, heq⟩ := Option.map_eq_some_iff.mp h
        obtain ⟨text, rfl, rfl⟩ := exists_cons_of_flatMap heq.symm
        rw [List.length_append] at hn
        exact .escape hu (ih raw.length (by omega) hraw htail rfl)
      · obtain ⟨hcontrol, hquote, hrest⟩ := hraw.of_cons hb
        rw [unescape?_cons_of_ne hb] at h
        obtain ⟨out, hout, heq⟩ := Option.map_eq_some_iff.mp h
        cases text with
        | nil => cases heq
        | cons c text =>
          obtain ⟨first, more, hbytes, -, hmore⟩ := exists_charBytes_eq_cons c
          rw [List.flatMap_cons, hbytes] at heq
          obtain ⟨rfl, rfl⟩ := List.cons.inj heq
          -- The first byte of a character is followed by all others of it.
          obtain ⟨raw, rfl, hraw', hunescape⟩ := exists_append_of_unescape? hrest hmore hout
          rw [List.length_append] at hn
          have hread := ih raw.length (by omega) hraw' hunescape rfl
          rw [← List.cons_append, ← hbytes]
          exact hread.of_charBytes hbytes hcontrol hquote hb

/-- **What a string says** is its text. -/
theorem decodeString?_eq_some_iff {text : String} (hraw : StringBody raw) :
    decodeString? raw = some text ↔ Says raw text.toList := by
  rw [decodeString?, Option.bind_eq_some_iff]
  constructor
  · rintro ⟨bytes, hbytes, htext⟩
    rw [textOfBytes?_eq_some_iff.mp htext] at hbytes
    exact says_of_unescape? hraw hbytes
  · intro h
    exact ⟨_, unescape?_of_says h, textOfBytes?_eq_some_iff.mpr rfl⟩

/-- **Every string** of a tree that a text begins with has the text that it says. -/
theorem Begins.decodeString?_eq_some_iff {text : List UInt8} {t : Tree} {s : String}
    (h : Begins text t rest) (hraw : .string raw ∈ t.toTokens) :
    decodeString? raw = some s ↔ Says raw s.toList := by
  obtain ⟨u, hu, -⟩ := h.exists_spelled hraw
  cases hu with
  | string hbody => exact Json.decodeString?_eq_some_iff hbody

end SpeechService.Json
