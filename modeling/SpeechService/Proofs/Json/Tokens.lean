import Mathlib.Data.List.DropRight
import SpeechService.Proofs.Json.Grammar

/-!
# Tokens are cut as they are spelled

`Json.tokens` cuts the longest number that it can, so that what it finds depends on the byte behind
a number. Where this byte cannot go on with one, cutting finds exactly the token that is spelled
(`token?_append`), and whatever it finds is spelled there (`exists_spelled_of_token?`).

In an **orderly** sequence of tokens something stands behind every number that no number goes on
with. Such a sequence is what is cut from the bytes that spell it (`tokens_append`), and the other
way round (`exists_spelled_of_tokens`).
-/

namespace SpeechService.Json

variable {s u tail rest : List UInt8}

/-! ### What stands at the front -/

/-- No byte of the kind stands at the front. -/
def Clear (p : UInt8 → Bool) (s : List UInt8) : Prop := ∀ b ∈ s.head?, p b = false

/-- A byte that a number may go on with. -/
def goesOn (b : UInt8) : Bool := isDigit b || b == 0x2E || b == charByte 'e' || b == charByte 'E'

theorem Clear.mono {p q : UInt8 → Bool} (h : Clear p s) (hq : ∀ b, q b = true → p b = true) :
    Clear q s := by
  intro b hb
  have hp := h b hb
  cases hqb : q b with
  | false => rfl
  | true => exact absurd (hq b hqb) (by simp [hp])

theorem Clear.takeWhile_eq_nil {p : UInt8 → Bool} (h : Clear p s) : s.takeWhile p = [] := by
  cases s with
  | nil => rfl
  | cons b s => exact List.takeWhile_cons_of_neg (by simp [h b rfl])

theorem Clear.dropWhile_eq_self {p : UInt8 → Bool} (h : Clear p s) : s.dropWhile p = s := by
  cases s with
  | nil => rfl
  | cons b s => exact List.dropWhile_cons_of_neg (by simp [h b rfl])

theorem Clear.isDigit (h : Clear goesOn s) : Clear isDigit s :=
  h.mono fun b hb => by simp [goesOn, hb]

/-! ### Numbers -/

/-- Digits that are spelled are cut, up to the first byte that is none. -/
theorem digits?_append {digits : List Char} (h : DigitsSpelled digits u)
    (hrest : Clear isDigit rest) : digits? (u ++ rest) = some (digits, rest) := by
  rw [digits?, List.takeWhile_append_of_pos h.isDigit, List.dropWhile_append_of_pos h.isDigit,
    hrest.takeWhile_eq_nil, hrest.dropWhile_eq_self, List.append_nil, ← h.eq]
  exact if_neg (by simpa using h.ne_nil)

/-- What is cut as digits is a row of digits, and not an empty one. -/
theorem exists_spelled_of_digits? {digits : List Char} (h : digits? s = some (digits, tail)) :
    ∃ u, s = u ++ tail ∧ DigitsSpelled digits u := by
  rw [digits?] at h
  split at h
  · exact nomatch h
  · next hne =>
    obtain ⟨rfl, rfl⟩ := Prod.mk.inj (Option.some.inj h)
    refine ⟨s.takeWhile isDigit, List.takeWhile_append_dropWhile.symm, ?_, ?_, rfl⟩
    · simpa using hne
    · exact fun b hb => List.mem_takeWhile_imp hb

/-- A fraction is cut whole; without one, no point may follow. -/
theorem fraction?_append {fraction : List Char} (h : FractionSpelled fraction u)
    (hrest : Clear isDigit rest) (hpoint : Clear (· == 0x2E) rest) :
    fraction? (u ++ rest) = some (fraction, rest) := by
  cases h with
  | none =>
    rw [List.nil_append, fraction?.eq_def]
    split
    · exact absurd (hpoint 0x2E rfl) (by decide)
    · rfl
  | point h => exact digits?_append h hrest

/-- What is cut as a fraction is spelled as one, or nothing is cut. -/
theorem exists_spelled_of_fraction? {fraction : List Char}
    (h : fraction? s = some (fraction, tail)) :
    ∃ u, s = u ++ tail ∧ FractionSpelled fraction u := by
  rw [fraction?.eq_def] at h
  split at h
  · obtain ⟨u, rfl, hu⟩ := exists_spelled_of_digits? h
    exact ⟨0x2E :: u, rfl, .point hu⟩
  · obtain ⟨rfl, rfl⟩ := Prod.mk.inj (Option.some.inj h)
    exact ⟨[], rfl, .none⟩

/-- The sign of an exponent is cut from the digits behind it. -/
theorem afterSign_append {down : Bool} {sign : List UInt8} (h : SignSpelled down sign)
    (hs : Clear (fun b => !isDigit b) s) (hne : s ≠ []) : afterSign (sign ++ s) = (down, s) := by
  cases h with
  | plus => rfl
  | minus => rfl
  | none =>
    rw [List.nil_append, afterSign.eq_def]
    split
    · exact absurd (hs 0x2B rfl) (by decide)
    · exact absurd (hs 0x2D rfl) (by decide)
    · rfl

theorem exists_spelled_of_afterSign (s : List UInt8) :
    ∃ u, s = u ++ (afterSign s).2 ∧ SignSpelled (afterSign s).1 u := by
  rw [afterSign.eq_def]
  split
  · exact ⟨[0x2B], rfl, .plus⟩
  · exact ⟨[0x2D], rfl, .minus⟩
  · exact ⟨[], rfl, .none⟩

/-- An exponent is cut whole; without one, nothing may follow that a number goes on with. -/
theorem exponent?_append {exponent : Option (Bool × List Char)} (h : ExponentSpelled exponent u)
    (hrest : Clear goesOn rest) : exponent? (u ++ rest) = some (exponent, rest) := by
  -- Without an exponent the next byte must not be the letter of one.
  cases h with
  | none =>
    rw [List.nil_append, exponent?.eq_def]
    split
    · rfl
    · next b rest =>
      have hb : goesOn b = false := hrest b rfl
      simp only [goesOn, Bool.or_eq_false_iff] at hb
      simp [hb.2, hb.1.2]
  | @some letter sign s down digits hl hs hd =>
    have hletter : (letter == charByte 'e' || letter == charByte 'E') = true := by simpa using hl
    -- The sign ends where the digits begin, so that it is not cut twice.
    have hfront : Clear (fun b => !isDigit b) (s ++ rest) := by
      intro b hb
      rw [List.head?_append_of_ne_nil _ hd.ne_nil] at hb
      simp [hd.isDigit b (List.mem_of_mem_head? hb)]
    have hsign := afterSign_append hs hfront (by simp [hd.ne_nil])
    rw [List.cons_append, List.append_assoc, exponent?, if_pos hletter, hsign]
    simp only [digits?_append hd hrest.isDigit, Option.map_some]

/-- What is cut as an exponent is spelled as one, or nothing is cut. -/
theorem exists_spelled_of_exponent? {exponent : Option (Bool × List Char)}
    (h : exponent? s = some (exponent, tail)) :
    ∃ u, s = u ++ tail ∧ ExponentSpelled exponent u := by
  rw [exponent?.eq_def] at h
  split at h
  · obtain ⟨rfl, rfl⟩ := Prod.mk.inj (Option.some.inj h)
    exact ⟨[], rfl, .none⟩
  · next b rest =>
    split at h
    · next hb =>
      obtain ⟨⟨digits, tail'⟩, hdigits, heq⟩ := Option.map_eq_some_iff.mp h
      obtain ⟨rfl, rfl⟩ := Prod.mk.inj heq
      obtain ⟨sign, hrest, hsign⟩ := exists_spelled_of_afterSign rest
      obtain ⟨w, hw, hspelled⟩ := exists_spelled_of_digits? hdigits
      refine ⟨b :: (sign ++ w), ?_, .some (by simpa using hb) hsign hspelled⟩
      rw [List.cons_append, List.append_assoc, ← hw, ← hrest]
    · obtain ⟨rfl, rfl⟩ := Prod.mk.inj (Option.some.inj h)
      exact ⟨[], rfl, .none⟩

/-- Behind an exponent, or in its place, neither a digit nor a point stands. -/
theorem clear_of_exponent {exponent : Option (Bool × List Char)} (h : ExponentSpelled exponent u)
    (hrest : Clear goesOn rest) :
    Clear isDigit (u ++ rest) ∧ Clear (· == 0x2E) (u ++ rest) := by
  cases h with
  | none => exact ⟨hrest.isDigit, hrest.mono fun b hb => by simp [goesOn, hb]⟩
  | some hl =>
    constructor <;> intro b hb <;> obtain rfl := Option.some.inj hb <;>
      rcases hl with rfl | rfl <;> decide

theorem clear_of_fraction {fraction : List Char} (h : FractionSpelled fraction u)
    (hrest : Clear isDigit rest) : Clear isDigit (u ++ rest) := by
  cases h with
  | none => exact hrest
  | point =>
    intro b hb
    obtain rfl := Option.some.inj hb
    rfl

namespace Numeral

/-- A numeral without its sign is cut part by part. -/
theorem unsigned?_append {n : Numeral} (h : n.UnsignedSpelled u) (hrest : Clear goesOn rest) :
    unsigned? n.negative (u ++ rest) = some (n, rest) := by
  obtain ⟨⟨w, f, e, rfl, hw, hf, he⟩, hzero⟩ := h
  obtain ⟨hdigit, hpoint⟩ := clear_of_exponent he hrest
  -- Every part is clear of what the part behind it begins with.
  have hwhole := digits?_append hw (clear_of_fraction hf hdigit)
  have hfraction := fraction?_append hf hdigit hpoint
  have hexponent := exponent?_append he hrest
  rw [unsigned?, List.append_assoc, List.append_assoc, hwhole, Option.bind_some]
  simp only [if_neg hzero, hfraction, hexponent, Option.bind_some, Option.map_some]

theorem exists_spelled_of_unsigned? {negative : Bool} {n : Numeral}
    (h : unsigned? negative s = some (n, tail)) :
    n.negative = negative ∧ ∃ u, s = u ++ tail ∧ n.UnsignedSpelled u := by
  obtain ⟨⟨whole, s₁⟩, hwhole, h⟩ := Option.bind_eq_some_iff.mp h
  simp only at h
  split at h
  · exact nomatch h
  · next hzero =>
    obtain ⟨⟨fraction, s₂⟩, hfraction, h⟩ := Option.bind_eq_some_iff.mp h
    obtain ⟨⟨exponent, s₃⟩, hexponent, heq⟩ := Option.map_eq_some_iff.mp h
    obtain ⟨rfl, rfl⟩ := Prod.mk.inj heq
    obtain ⟨w, rfl, hw⟩ := exists_spelled_of_digits? hwhole
    obtain ⟨f, hf₂, hf⟩ := exists_spelled_of_fraction? hfraction
    obtain ⟨e, he₃, he⟩ := exists_spelled_of_exponent? hexponent
    refine ⟨rfl, w ++ (f ++ e), ?_, ⟨w, f, e, rfl, hw, hf, he⟩, hzero⟩
    simp only at hf₂ he₃
    rw [hf₂, he₃, List.append_assoc, List.append_assoc]

/-- A numeral that is spelled is cut, up to a byte that no number goes on with. -/
theorem numeral?_append {n : Numeral} (h : n.Spelled u) (hrest : Clear goesOn rest) :
    numeral? (u ++ rest) = some (n, rest) := by
  cases h with
  | minus hn h =>
    have hunsigned := unsigned?_append h hrest
    rwa [hn] at hunsigned
  | plain hn h =>
    have hunsigned := unsigned?_append h hrest
    rw [hn] at hunsigned
    rw [numeral?.eq_def]
    split
    · next heq =>
      -- A minus sign is no digit.
      obtain ⟨⟨w, f, e, rfl, hw, -, -⟩, -⟩ := h
      obtain ⟨b, w', rfl⟩ := List.exists_cons_of_ne_nil hw.ne_nil
      obtain rfl : b = 0x2D := (List.cons.inj heq).1
      exact absurd (hw.isDigit 0x2D (.head _)) (by decide)
    · exact hunsigned

theorem exists_spelled_of_numeral? {n : Numeral} (h : numeral? s = some (n, tail)) :
    ∃ u, s = u ++ tail ∧ n.Spelled u := by
  rw [numeral?.eq_def] at h
  split at h
  · obtain ⟨hn, u, rfl, hu⟩ := exists_spelled_of_unsigned? h
    exact ⟨0x2D :: u, rfl, .minus hn hu⟩
  · obtain ⟨hn, u, rfl, hu⟩ := exists_spelled_of_unsigned? h
    exact ⟨u, rfl, .plain hn hu⟩

end Numeral

/-! ### Strings -/

/-- The body of a string is cut up to the quote behind it. -/
theorem stringBody?_append {raw : List UInt8} (h : StringBody raw) (rest : List UInt8) :
    stringBody? (raw ++ 0x22 :: rest) = some (raw, rest) := by
  -- Along the spelling: every case of it is the one branch of the cutting that fits.
  induction h with
  | nil => rfl
  | plain hcontrol hquote hslash _ ih =>
    rw [List.cons_append, stringBody?.eq_def]
    split
    · next heq => exact nomatch heq
    · next heq => exact absurd (List.cons.inj heq).1 hquote
    · next heq => exact absurd (List.cons.inj heq).1 hslash
    · next heq => exact absurd (List.cons.inj heq).1 hslash
    · next heq =>
      obtain ⟨rfl, rfl⟩ := List.cons.inj heq
      simp [hcontrol, hslash, ih]
  | @short e raw he _ ih =>
    have hu : e ≠ 0x75 := by
      rintro rfl
      exact absurd he (by decide)
    rw [List.cons_append, List.cons_append, stringBody?.eq_def]
    split
    · next heq => exact nomatch heq
    · next heq => exact absurd (List.cons.inj heq).1 (by decide)
    · next heq => exact absurd (List.cons.inj (List.cons.inj heq).2).1 hu
    · next heq =>
      obtain ⟨rfl, rfl⟩ := List.cons.inj (List.cons.inj heq).2
      simp [he, ih]
    · next hshort heq =>
      obtain ⟨rfl, rfl⟩ := List.cons.inj heq
      exact absurd rfl (hshort e _ rfl)
  | number hx _ ih =>
    simp only [List.cons_append, stringBody?, hx, ih, if_true, Option.map_some]

/-- What is cut as the body of a string is spelled as one, and a quote stands behind it. -/
theorem exists_spelled_of_stringBody? {raw : List UInt8} (h : stringBody? s = some (raw, tail)) :
    s = raw ++ 0x22 :: tail ∧ StringBody raw := by
  fun_induction stringBody? s generalizing raw tail with
  | case1 => cases h
  | case2 rest =>
    obtain ⟨rfl, rfl⟩ := Prod.mk.inj (Option.some.inj h)
    exact ⟨rfl, .nil⟩
  | case3 a b c d rest hx ih =>
    obtain ⟨⟨raw', tail'⟩, hs, heq⟩ := Option.map_eq_some_iff.mp h
    obtain ⟨rfl, rfl⟩ := Prod.mk.inj heq
    obtain ⟨rfl, hbody⟩ := ih hs
    exact ⟨rfl, .number hx hbody⟩
  | case4 => cases h
  | case5 e rest _ he ih =>
    obtain ⟨⟨raw', tail'⟩, hs, heq⟩ := Option.map_eq_some_iff.mp h
    obtain ⟨rfl, rfl⟩ := Prod.mk.inj heq
    obtain ⟨rfl, hbody⟩ := ih hs
    exact ⟨rfl, .short he hbody⟩
  | case6 => cases h
  | case7 => cases h
  | case8 b rest hquote _ _ hb ih =>
    obtain ⟨⟨raw', tail'⟩, hs, heq⟩ := Option.map_eq_some_iff.mp h
    obtain ⟨rfl, rfl⟩ := Prod.mk.inj heq
    obtain ⟨rfl, hbody⟩ := ih hs
    simp only [Bool.or_eq_true, decide_eq_true_eq, beq_iff_eq, not_or] at hb
    exact ⟨rfl, .plain hb.1 hquote hb.2 hbody⟩

/-! ### One token -/

/-- A byte is the one of its character. -/
theorem charByte_byteChar (b : UInt8) : charByte (byteChar b) = b := by
  have hvalid : b.toNat.isValidChar := .inl (by have := b.toNat_lt; omega)
  rw [charByte, byteChar, Char.ofNat, dif_pos hvalid]
  exact UInt8.ofNat_toNat

theorem eq_of_byteChar {b : UInt8} {c : Char} (h : byteChar b = c) : b = charByte c := by
  rw [← h, charByte_byteChar]

/-- A byte that a number may start with. -/
def startsNumber (b : UInt8) : Bool := b == 0x2D || isDigit b

theorem startsNumber_iff {b : UInt8} :
    startsNumber b = true ↔ byteChar b = '-' ∨ isDigit b = true := by
  rw [startsNumber, Bool.or_eq_true, beq_iff_eq]
  refine or_congr_left ⟨?_, eq_of_byteChar⟩
  rintro rfl
  rfl

/-- A minus sign or a digit starts a number, and nothing else does. -/
theorem token?_of_startsNumber {b : UInt8} (hb : startsNumber b = true) (rest : List UInt8) :
    token? b rest = (numeral? (b :: rest)).map fun (n, tail) => (.number n, tail) := by
  have hother {c : Char} (h : byteChar b = c) : startsNumber (charByte c) = true :=
    eq_of_byteChar h ▸ hb
  rw [token?.eq_def]
  split
  case h_11 => exact if_pos (startsNumber_iff.mp hb)
  all_goals exact absurd (hother ‹byteChar b = _›) (by decide)

theorem Numeral.Spelled.exists_eq_cons {n : Numeral} (h : n.Spelled u) :
    ∃ b u', u = b :: u' ∧ startsNumber b = true := by
  cases h with
  | minus => exact ⟨0x2D, _, rfl, rfl⟩
  | plain _ h =>
    obtain ⟨⟨w, f, e, rfl, hw, -, -⟩, -⟩ := h
    obtain ⟨b, w', rfl⟩ := List.exists_cons_of_ne_nil hw.ne_nil
    refine ⟨b, w' ++ (f ++ e), rfl, ?_⟩
    rw [startsNumber, hw.isDigit b (.head _), Bool.or_true]

theorem isSpace_of_startsNumber {b : UInt8} (hb : startsNumber b = true) : isSpace b = false := by
  refine Bool.eq_false_iff.mpr fun hspace => ?_
  simp only [isSpace, Bool.or_eq_true, beq_iff_eq] at hspace
  obtain ((rfl | rfl) | rfl) | rfl := hspace <;> exact absurd hb (by decide)

/-- The token ends where `rest` begins. -/
def Token.Ends (t : Token) (rest : List UInt8) : Prop := ∀ n, t = .number n → Clear goesOn rest

/-- A token that is spelled is cut, if it ends there. -/
theorem token?_append {t : Token} (h : t.Spelled u) (hrest : t.Ends rest) :
    ∃ b u', u = b :: u' ∧ isSpace b = false ∧ token? b (u' ++ rest) = some (t, rest) := by
  cases h with
  | number hn =>
    have hnumeral := Numeral.numeral?_append hn (hrest _ rfl)
    obtain ⟨b, u', rfl, hb⟩ := hn.exists_eq_cons
    refine ⟨b, u', rfl, isSpace_of_startsNumber hb, ?_⟩
    rw [token?_of_startsNumber hb, ← List.cons_append, hnumeral, Option.map_some]
  | @string raw hraw =>
    refine ⟨0x22, raw ++ [0x22], rfl, rfl, ?_⟩
    have hbody := stringBody?_append hraw rest
    rw [List.append_assoc, List.singleton_append]
    show (stringBody? _).map _ = _
    rw [hbody, Option.map_some]
  | _ => exact ⟨_, _, rfl, rfl, rfl⟩

/-- What is cut is spelled. -/
theorem exists_spelled_of_token? {b : UInt8} {t : Token} (h : token? b s = some (t, tail)) :
    ∃ u, b :: s = u ++ tail ∧ t.Spelled u := by
  rw [token?.eq_def] at h
  split at h
  case h_7 =>
    obtain rfl := eq_of_byteChar ‹byteChar b = _›
    obtain ⟨⟨raw, tail'⟩, hbody, heq⟩ := Option.map_eq_some_iff.mp h
    obtain ⟨rfl, rfl⟩ := Prod.mk.inj heq
    obtain ⟨rfl, hraw⟩ := exists_spelled_of_stringBody? hbody
    exact ⟨0x22 :: (raw ++ [0x22]), by simp [charByte], .string hraw⟩
  case h_11 =>
    split at h
    · obtain ⟨⟨n, tail'⟩, hnumeral, heq⟩ := Option.map_eq_some_iff.mp h
      obtain ⟨rfl, rfl⟩ := Prod.mk.inj heq
      obtain ⟨u, hu, hn⟩ := Numeral.exists_spelled_of_numeral? hnumeral
      exact ⟨u, hu, .number hn⟩
    · exact nomatch h
  all_goals
    obtain rfl := eq_of_byteChar ‹byteChar b = _›
    obtain ⟨rfl, rfl⟩ := Prod.mk.inj (Option.some.inj h)
    exact ⟨_, rfl, by constructor⟩

/-! ### Sequences of tokens -/

theorem tokens_of_isSpace {b : UInt8} (hb : isSpace b = true) (s : List UInt8) :
    tokens (b :: s) = tokens s := by
  rw [tokens, if_pos hb]

theorem tokens_of_token? {b : UInt8} {t : Token} (hb : isSpace b = false)
    (h : token? b s = some (t, tail)) : tokens (b :: s) = t :: tokens tail := by
  rw [tokens, if_neg (by simp [hb])]
  split
  · next hnone => cases h.symm.trans hnone
  · next heq =>
    obtain ⟨rfl, rfl⟩ := Prod.mk.inj (Option.some.inj (h.symm.trans heq))
    rfl

/-- Spaces in front of the first token are passed over. -/
theorem tokens_append_spaces {w : List UInt8} (hw : Spaces w) (s : List UInt8) :
    tokens (w ++ s) = tokens s := by
  induction w with
  | nil => rfl
  | cons b w ih =>
    obtain ⟨hb, hw⟩ := List.forall_mem_cons.mp hw
    rw [List.cons_append, tokens_of_isSpace hb, ih hw]

/-- There are no tokens only where there are none but spaces. -/
theorem tokens_eq_nil_iff : tokens s = [] ↔ Spaces s := by
  refine ⟨fun h => ?_, fun h => ?_⟩
  · fun_induction tokens s with
    | case1 => exact nofun
    | case2 b rest hb ih => exact List.forall_mem_cons.mpr ⟨hb, ih h⟩
    | case3 => exact nomatch h
    | case4 => exact nomatch h
  · have hnone := tokens_append_spaces h []
    rwa [List.append_nil, tokens] at hnone

/-- The first token is spelled where it is cut, with spaces in front of it. -/
theorem exists_spelled_of_tokens_cons {t : Token} {ts : List Token} (h : tokens s = t :: ts)
    (ht : t ≠ .junk) :
    ∃ w u tail, s = w ++ (u ++ tail) ∧ Spaces w ∧ t.Spelled u ∧ tokens tail = ts := by
  -- The spaces that are passed over on the way stand in front of the token.
  fun_induction tokens s with
  | case1 => exact nomatch h
  | case2 b rest hb ih =>
    obtain ⟨w, u, tail, rfl, hw, hu, htail⟩ := ih h
    exact ⟨b :: w, u, tail, rfl, List.forall_mem_cons.mpr ⟨hb, hw⟩, hu, htail⟩
  | case3 => exact absurd (List.cons.inj h).1.symm ht
  | case4 b rest hb t' tail htoken =>
    obtain ⟨rfl, rfl⟩ := List.cons.inj h
    obtain ⟨u, hu, hspelled⟩ := exists_spelled_of_token? htoken
    exact ⟨[], u, tail, hu, nofun, hspelled, rfl⟩

/-- **What is cut is spelled.** Where tokens are cut from the front of a text, none of them junk,
the text begins with bytes that spell them. -/
theorem exists_spelled_of_tokens {ts us : List Token} (h : tokens s = ts ++ us)
    (hjunk : .junk ∉ ts) : ∃ u rest, s = u ++ rest ∧ Spelled ts u ∧ tokens rest = us := by
  induction ts generalizing s with
  | nil => exact ⟨[], s, rfl, .nil, h⟩
  | cons t ts ih =>
    rw [List.mem_cons, not_or] at hjunk
    obtain ⟨ht, hts⟩ := hjunk
    obtain ⟨w, u, tail, rfl, hw, hu, htail⟩ := exists_spelled_of_tokens_cons h (Ne.symm ht)
    obtain ⟨v, rest, rfl, hv, hrest⟩ := ih htail hts
    exact ⟨w ++ (u ++ v), rest, by simp only [List.append_assoc], .cons hw hu hv, hrest⟩

/-- Every token of a sequence is spelled in it. -/
theorem Spelled.exists_of_mem {ts : List Token} (h : Spelled ts s) {t : Token} (ht : t ∈ ts) :
    ∃ u, t.Spelled u ∧ u.length ≤ s.length := by
  induction h with
  | nil => cases ht
  | @cons _ _ w u s _ hu _ ih =>
    simp only [List.length_append]
    rcases List.mem_cons.mp ht with rfl | ht
    · exact ⟨u, hu, by omega⟩
    · obtain ⟨v, hv, hlength⟩ := ih ht
      exact ⟨v, hv, by omega⟩

/-- Every token of a tree is spelled in a text that begins with the tree. -/
theorem Begins.exists_spelled {text : List UInt8} {tree : Tree} (h : Begins text tree rest)
    {t : Token} (ht : t ∈ tree.toTokens) : ∃ u, t.Spelled u ∧ u.length ≤ text.length := by
  obtain ⟨s, rfl, hspelled⟩ := h.spelled
  obtain ⟨u, hu, hlength⟩ := hspelled.exists_of_mem ht
  exact ⟨u, hu, List.length_append ▸ Nat.le_add_right_of_le hlength⟩

/-- A token that no number goes on with, whatever is in front of it. -/
def Token.isSeparator : Token → Bool
  | .comma | .closeBracket | .closeBrace => true
  | _ => false

/-- A separator is in front. -/
def Separated (ts : List Token) : Prop := ∃ t ∈ ts.head?, t.isSeparator = true

/-- A separator is behind every number. -/
inductive Orderly : List Token → Prop
  | nil : Orderly []
  | cons {t ts} (ht : ∀ n, t = .number n → Separated ts) (h : Orderly ts) : Orderly (t :: ts)

/-- No number goes on where a separator is in front. -/
theorem Separated.clear {ts : List Token} (hts : Separated ts) (h : Spelled ts s)
    (rest : List UInt8) : Clear goesOn (s ++ rest) := by
  cases h with
  | nil =>
    obtain ⟨t, ht, -⟩ := hts
    exact nomatch ht
  | @cons t ts w u s hw hu =>
    obtain ⟨t', ht', hsep⟩ := hts
    obtain rfl := Option.some.inj ht'
    -- What stands in front is a space or the separator itself.
    cases w with
    | cons b w =>
      intro c hc
      obtain rfl := Option.some.inj hc
      have hspace := hw b (.head _)
      simp only [isSpace, Bool.or_eq_true, beq_iff_eq] at hspace
      obtain ((rfl | rfl) | rfl) | rfl := hspace <;> decide
    | nil =>
      intro c hc
      cases hu with
      | comma | closeBracket | closeBrace =>
        obtain rfl := Option.some.inj hc
        decide
      | _ => exact nomatch hsep

/-- **What is spelled is cut**, if a separator is behind every number. -/
theorem tokens_append {ts : List Token} (hts : Orderly ts) (h : Spelled ts s) (rest : List UInt8) :
    tokens (s ++ rest) = ts ++ tokens rest := by
  induction h with
  | nil => rfl
  | @cons t ts w u s hw hu hs ih =>
    cases hts with
    | cons ht hts =>
      have hends : t.Ends (s ++ rest) := fun n hn => (ht n hn).clear hs rest
      obtain ⟨b, u', rfl, hb, htoken⟩ := token?_append hu hends
      rw [List.append_assoc, tokens_append_spaces hw, List.append_assoc, List.cons_append,
        tokens_of_token? hb htoken, ih hts, List.cons_append]

/-! ### The tokens of a tree -/

theorem separated_of_cons {t : Token} (ht : t.isSeparator = true) (ts : List Token) :
    Separated (t :: ts) := ⟨t, rfl, ht⟩

theorem Orderly.cons_comma {ts : List Token} (h : Orderly ts) : Orderly ([.comma] ++ ts) :=
  .cons nofun h

theorem junk_notMem_comma : .junk ∉ [Token.comma] := by decide

namespace Tree

/-- Further items begin with a comma, so that they separate as what is behind them does. -/
theorem separated_itemTokens (items : List Tree) {ts : List Token} (hts : Separated ts) :
    Separated (itemTokens [.comma] items ++ ts) := by
  cases items with
  | nil => exact hts
  | cons => exact separated_of_cons rfl _

theorem separated_memberTokens (members : List (List UInt8 × Tree)) {ts : List Token}
    (hts : Separated ts) : Separated (memberTokens [.comma] members ++ ts) := by
  cases members with
  | nil => exact hts
  | cons => exact separated_of_cons rfl _

mutual

/-- The tokens of a tree are orderly where a separator is behind them. -/
theorem orderly_toTokens {ts : List Token} (hts : Orderly ts) (hsep : Separated ts) :
    ∀ t : Tree, Orderly (t.toTokens ++ ts)
  | .missing => hts
  | .null | .bool _ | .string _ => .cons nofun hts
  | .number _ => .cons (fun _ _ => hsep) hts
  | .array items _ => by
    have hclose : Orderly (.closeBracket :: ts) := .cons nofun hts
    have hitems := orderly_itemTokens [] hclose (separated_of_cons rfl ts) (fun _ h => h) items
    rw [toTokens, List.cons_append, List.append_assoc]
    exact .cons nofun hitems
  | .object members _ => by
    have hclose : Orderly (.closeBrace :: ts) := .cons nofun hts
    have hmembers :=
      orderly_memberTokens [] hclose (separated_of_cons rfl ts) (fun _ h => h) members
    rw [toTokens, List.cons_append, List.append_assoc]
    exact .cons nofun hmembers

theorem orderly_itemTokens {ts : List Token} (front : List Token) (hts : Orderly ts)
    (hsep : Separated ts) (hfront : ∀ us, Orderly us → Orderly (front ++ us)) :
    ∀ items : List Tree, Orderly (itemTokens front items ++ ts)
  | [] => hts
  | t :: rest => by
    have hrest := orderly_itemTokens [.comma] hts hsep (fun _ h => h.cons_comma) rest
    have hitem := orderly_toTokens hrest (separated_itemTokens rest hsep) t
    rw [itemTokens, List.append_assoc, List.append_assoc]
    exact hfront _ hitem

theorem orderly_memberTokens {ts : List Token} (front : List Token) (hts : Orderly ts)
    (hsep : Separated ts) (hfront : ∀ us, Orderly us → Orderly (front ++ us)) :
    ∀ members : List (List UInt8 × Tree), Orderly (memberTokens front members ++ ts)
  | [] => hts
  | (raw, t) :: rest => by
    have hrest := orderly_memberTokens [.comma] hts hsep (fun _ h => h.cons_comma) rest
    have hvalue := orderly_toTokens hrest (separated_memberTokens rest hsep) t
    rw [memberTokens, List.append_assoc, List.cons_append, List.cons_append, List.append_assoc]
    exact hfront _ (.cons nofun (.cons nofun hvalue))

end

mutual

/-- No token of a tree is junk. -/
theorem junk_notMem_toTokens : ∀ t : Tree, .junk ∉ t.toTokens
  | .missing => List.not_mem_nil
  | .null | .bool _ | .string _ | .number _ => by simp [toTokens]
  | .array items _ => by simp [toTokens, junk_notMem_itemTokens List.not_mem_nil items]
  | .object members _ => by simp [toTokens, junk_notMem_memberTokens List.not_mem_nil members]

theorem junk_notMem_itemTokens {front : List Token} (hfront : .junk ∉ front) :
    ∀ items : List Tree, .junk ∉ itemTokens front items
  | [] => List.not_mem_nil
  | t :: rest => by
    simp [itemTokens, hfront, junk_notMem_toTokens t, junk_notMem_itemTokens junk_notMem_comma rest]

theorem junk_notMem_memberTokens {front : List Token} (hfront : .junk ∉ front) :
    ∀ members : List (List UInt8 × Tree), .junk ∉ memberTokens front members
  | [] => List.not_mem_nil
  | (raw, t) :: rest => by
    simp [memberTokens, hfront, junk_notMem_toTokens t,
      junk_notMem_memberTokens junk_notMem_comma rest]

end

/-- A tree with brackets around it: it is seen where such a tree ends. -/
def isBracketed : Tree → Bool
  | .array _ _ | .object _ _ => true
  | _ => false

/-- A tree in brackets needs no separator behind it. -/
theorem orderly_of_isBracketed {t : Tree} (ht : t.isBracketed = true) : Orderly t.toTokens := by
  cases t with
  | array items closed =>
    have hclose : Orderly [.closeBracket] := .cons nofun .nil
    exact .cons nofun
      (orderly_itemTokens [] hclose (separated_of_cons rfl []) (fun _ h => h) items)
  | object members closed =>
    have hclose : Orderly [.closeBrace] := .cons nofun .nil
    exact .cons nofun
      (orderly_memberTokens [] hclose (separated_of_cons rfl []) (fun _ h => h) members)
  | _ => cases ht

end Tree

end SpeechService.Json
