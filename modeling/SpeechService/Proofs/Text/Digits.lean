import SpeechService.Proofs.Text.Lowercase
import SpeechService.Proofs.Text.Trimming
import SpeechService.Text.Integer

/-!
# Digits that are read back

A text is read as a natural number when it **spells** one within the limit, and not otherwise
(`Text.natural?_eq_some_iff`). So a number that is written in decimal digits is read back from them
where the limit allows it (`Text.natural?_toDigits`). Digits are neither blank nor capital, so that
trimming and lower case leave a number as it is.
-/

namespace SpeechService.Text

/-! ### Digits -/

theorem isDigit_of_mem_toDigits {n : Nat} {c : Char} (h : c ∈ Nat.toDigits 10 n) :
    c.isDigit = true :=
  Nat.isDigit_of_mem_toDigits (by decide) (by decide) h

theorem toList_ofNat (n : Nat) : (ofNat n).toList = Nat.toDigits 10 n := String.toList_ofList

theorem isBlank_of_isDigit {c : Char} (h : c.isDigit = true) : isBlank c = false := by
  obtain ⟨hlow, hhigh⟩ := Char.isDigit_iff_toNat.mp h
  have hlow : 48 ≤ c.toNat := hlow
  have hhigh : c.toNat ≤ 57 := hhigh
  simp only [isBlank, Bool.or_eq_false_iff, Bool.and_eq_false_iff, decide_eq_false_iff_not,
    beq_eq_false_iff_ne]
  omega

theorem not_capital_of_isDigit {c : Char} (h : c.isDigit = true) : ¬('A' ≤ c ∧ c ≤ 'Z') := by
  intro hcapital
  have hdigit : c.toNat ≤ 57 := (Char.isDigit_iff_toNat.mp h).2
  have hletter : 65 ≤ c.toNat := hcapital.1
  omega

/-- Nothing is trimmed where nothing is blank. -/
theorem trimList_of_forall {s : List Char} (h : ∀ c ∈ s, isBlank c = false) : trimList s = s := by
  have hnone : ∀ c ∈ ([] : List Char), isBlank c = true := by simp
  have htrim := trimList_append hnone hnone (fun c hc => h c (List.mem_of_mem_head? hc))
    (fun c hc => h c (List.mem_of_mem_getLast? hc))
  rwa [List.append_nil, List.nil_append] at htrim

theorem digit?_of_isDigit {c : Char} (h : c.isDigit = true) :
    digit? c = some (c.toNat - '0'.toNat) :=
  if_pos (Char.isDigit_iff_toNat.mp h)

theorem isDigit_of_digit? {c : Char} {d : Nat} (h : digit? c = some d) :
    c.isDigit = true ∧ d = c.toNat - '0'.toNat := by
  rw [digit?] at h
  split at h
  · next hc => exact ⟨Char.isDigit_iff_toNat.mpr hc, (Option.some.inj h).symm⟩
  · exact nomatch h

/-! ### Reading -/

/-- What is read of digits never gets smaller. -/
theorem le_ofDigitChars {start : Nat} {s : List Char} : start ≤ Nat.ofDigitChars 10 s start := by
  rw [Nat.ofDigitChars_eq_ofDigitChars_zero]
  exact Nat.le_add_right_of_le (Nat.le_mul_of_pos_left _ (Nat.pow_pos (by decide)))

/-- Digits are read as far as the limit goes. -/
theorem digitsFrom?_of_isDigit {limit start : Nat} {s : List Char}
    (hs : ∀ c ∈ s, c.isDigit = true) (h : Nat.ofDigitChars 10 s start ≤ limit) :
    digitsFrom? limit start s = some (Nat.ofDigitChars 10 s start) := by
  induction s generalizing start with
  | nil => rfl
  | cons c s ih =>
    obtain ⟨hc, hs⟩ := List.forall_mem_cons.mp hs
    rw [Nat.ofDigitChars_cons] at h ⊢
    -- The limit is not passed on the way either.
    have hle : 10 * start + (c.toNat - '0'.toNat) ≤ limit := Nat.le_trans le_ofDigitChars h
    rw [digitsFrom?, digit?_of_isDigit hc]
    exact (if_neg (Nat.not_lt.mpr hle)).trans (ih hs h)

theorem digitsFrom?_le {limit start n : Nat} {s : List Char} (hstart : start ≤ limit)
    (h : digitsFrom? limit start s = some n) : n ≤ limit := by
  induction s generalizing start with
  | nil => exact Option.some.inj h ▸ hstart
  | cons c s ih =>
    rw [digitsFrom?] at h
    obtain ⟨d, -, h⟩ := Option.bind_eq_some_iff.mp h
    split at h
    · exact nomatch h
    · next hle => exact ih (Nat.not_lt.mp hle) h

/-- **What is read** of digits, and that nothing else is read. -/
theorem digitsFrom?_eq_some_iff {limit start n : Nat} {s : List Char} (hstart : start ≤ limit) :
    digitsFrom? limit start s = some n ↔
      (∀ c ∈ s, c.isDigit = true) ∧ Nat.ofDigitChars 10 s start = n ∧ n ≤ limit := by
  constructor
  · intro h
    suffices hread : (∀ c ∈ s, c.isDigit = true) ∧ Nat.ofDigitChars 10 s start = n from
      ⟨hread.1, hread.2, digitsFrom?_le hstart h⟩
    clear hstart
    induction s generalizing start with
    | nil => exact ⟨by simp, Option.some.inj h⟩
    | cons c s ih =>
      rw [digitsFrom?] at h
      obtain ⟨d, hd, h⟩ := Option.bind_eq_some_iff.mp h
      obtain ⟨hc, rfl⟩ := isDigit_of_digit? hd
      split at h
      · exact nomatch h
      · obtain ⟨hs, hvalue⟩ := ih h
        exact ⟨List.forall_mem_cons.mpr ⟨hc, hs⟩, by rw [Nat.ofDigitChars_cons, hvalue]⟩
  · rintro ⟨hs, rfl, hle⟩
    exact digitsFrom?_of_isDigit hs hle

/-- The text **spells** the natural number: digits of this value, after at most one plus sign. -/
def SpellsNatural (s : List Char) (n : Nat) : Prop :=
  ∃ digits, (s = digits ∨ s = '+' :: digits) ∧ digits ≠ [] ∧ (∀ c ∈ digits, c.isDigit = true) ∧
    Nat.ofDigitChars 10 digits 0 = n

theorem digits?_eq_some_iff {limit n : Nat} {s : List Char} :
    digits? limit s = some n ↔
      s ≠ [] ∧ (∀ c ∈ s, c.isDigit = true) ∧ Nat.ofDigitChars 10 s 0 = n ∧ n ≤ limit := by
  cases s with
  | nil => exact iff_of_false nofun fun h => h.1 rfl
  | cons c s => exact (digitsFrom?_eq_some_iff (Nat.zero_le _)).trans (by simp)

/-- **Reading a number**: what it spells, up to the limit. -/
theorem natural?_eq_some_iff {limit n : Nat} {s : List Char} :
    natural? limit s = some n ↔ SpellsNatural s n ∧ n ≤ limit := by
  rw [natural?.eq_def]
  constructor
  · intro h
    split at h
    · next digits =>
      obtain ⟨hne, hdigits, hvalue, hle⟩ := digits?_eq_some_iff.mp h
      exact ⟨⟨digits, .inr rfl, hne, hdigits, hvalue⟩, hle⟩
    · obtain ⟨hne, hdigits, hvalue, hle⟩ := digits?_eq_some_iff.mp h
      exact ⟨⟨_, .inl rfl, hne, hdigits, hvalue⟩, hle⟩
  · rintro ⟨⟨digits, rfl | rfl, hne, hdigits, hvalue⟩, hle⟩
    · split
      · -- A plus sign is no digit.
        exact absurd (hdigits '+' (.head _)) (by decide)
      · exact digits?_eq_some_iff.mpr ⟨hne, hdigits, hvalue, hle⟩
    · exact digits?_eq_some_iff.mpr ⟨hne, hdigits, hvalue, hle⟩

/-- No number beyond the limit is read. -/
theorem natural?_le {limit n : Nat} {s : List Char} (h : natural? limit s = some n) :
    n ≤ limit :=
  (natural?_eq_some_iff.mp h).2

/-- A number spells itself in its digits. -/
theorem spellsNatural_toDigits (n : Nat) : SpellsNatural (Nat.toDigits 10 n) n :=
  ⟨_, .inl rfl, Nat.toDigits_ne_nil, fun _ => isDigit_of_mem_toDigits,
    Nat.ofDigitChars_ten_toDigits⟩

/-- **Reading a number back.** -/
theorem natural?_toDigits {limit n : Nat} (h : n ≤ limit) :
    natural? limit (Nat.toDigits 10 n) = some n :=
  natural?_eq_some_iff.mpr ⟨spellsNatural_toDigits n, h⟩

end SpeechService.Text
