import SpeechService.Text.Lowercase

/-!
# Lower case twice

The lower-case form of a text is in lower case: taking it again changes nothing
(`Text.lower_lower`), and a text of ASCII characters shares it with every text that differs from it
in the case of letters only (`Text.lower_eq_of_caseVariant`).

A character is **settled** when it is its own lower-case form, in any context. The table of forms
leads to settled characters only: no number of a form is that of a character with a form
(`Text.not_mem_sources`). Both sets are written as the bits of a number, so that this is one
conjunction.
-/

namespace SpeechService.Text

/-! ### Sets of numbers as bits -/

/-- The number whose bits are the members of a list. -/
def bits : List Nat → Nat
  | [] => 0
  | n :: rest => 1 <<< n ||| bits rest

/-- The bits of a number stand for the members of a list. -/
theorem testBit_bits {l : List Nat} {n : Nat} : (bits l).testBit n = true ↔ n ∈ l := by
  induction l with
  | nil => simp [bits]
  | cons m l ih =>
    rw [bits, Nat.testBit_or, Bool.or_eq_true, ih, List.mem_cons, Nat.one_shiftLeft,
      Nat.testBit_two_pow, decide_eq_true_iff, eq_comm]

/-- Lists without a common bit have no common member. -/
theorem not_mem_of_bits {l l' : List Nat} (h : bits l &&& bits l' = 0) {n : Nat} (hn : n ∈ l) :
    n ∉ l' := by
  intro hn'
  have hbit : (bits l &&& bits l').testBit n = true := by
    rw [Nat.testBit_and, testBit_bits.mpr hn, testBit_bits.mpr hn']
    rfl
  rw [h, Nat.zero_testBit] at hbit
  exact absurd hbit (by decide)

/-! ### The table -/

/-- A run of the table. -/
abbrev LowerRun := Nat × Nat × Nat × Int

/-- The run has the lower-case form of the character with this number. -/
def covers (n : Nat) : LowerRun → Bool :=
  fun (first, last, step, _) => first ≤ n && n ≤ last && (n - first) % step == 0

/-- The numbers of the characters that a run covers. -/
def covered : LowerRun → List Nat
  | (first, last, step, _) => (List.range ((last - first) / step + 1)).map (first + step * ·)

/-- The numbers of all characters with a lower-case form of their own. -/
def sources : List Nat := 0x130 :: lowerRuns.flatMap covered

/-- The numbers of the characters in lower-case forms: those that the table leads to, and those
that are written out. Zero is the number of a character that does not exist. -/
def forms : List Nat :=
  [0, 'i'.toNat, 0x307, 'ς'.toNat, 'σ'.toNat]
    ++ lowerRuns.flatMap fun r => (covered r).map fun n : Nat => (n + r.2.2.2).toNat

/-- What a run covers is on its list. -/
theorem mem_covered {n : Nat} {r : LowerRun} (h : covers n r = true) : n ∈ covered r := by
  obtain ⟨first, last, step, distance⟩ := r
  obtain ⟨⟨hfirst, hlast⟩, hstep⟩ : (first ≤ n ∧ n ≤ last) ∧ (n - first) % step = 0 := by
    simpa [covers] using h
  have hle : (n - first) / step ≤ (last - first) / step := Nat.div_le_div_right (by omega)
  have hn := Nat.div_add_mod (n - first) step
  exact List.mem_map.mpr ⟨(n - first) / step, List.mem_range.mpr (by omega), by omega⟩

theorem mem_sources {n : Nat} {r : LowerRun} (hr : r ∈ lowerRuns) (h : covers n r = true) :
    n ∈ sources :=
  List.mem_cons_of_mem _ (List.mem_flatMap.mpr ⟨r, hr, mem_covered h⟩)

theorem mem_forms {n : Nat} {r : LowerRun} (hr : r ∈ lowerRuns) (h : covers n r = true) :
    (n + r.2.2.2).toNat ∈ forms :=
  List.mem_append_right _
    (List.mem_flatMap.mpr ⟨r, hr, List.mem_map.mpr ⟨n, mem_covered h, rfl⟩⟩)

theorem mem_forms_of_written {n : Nat} (h : n ∈ [0, 'i'.toNat, 0x307, 'ς'.toNat, 'σ'.toNat]) :
    n ∈ forms :=
  List.mem_append_left _ h

/-- What is found by going through the table: no character of a form has a form of its own, a
capital sigma has one, and so have the capitals below 128 and nothing else there. -/
private theorem of_table : bits forms &&& bits sources = 0 ∧ lowerChar 'Σ' ≠ ['Σ'] ∧
    ∀ n < 0x80, (Char.ofNat n).toLower.toNat < 0x80 ∧
      lowerChar (Char.ofNat n) = [(Char.ofNat n).toLower] := by
  decide +kernel

/-- No character of a form has a form of its own. -/
theorem not_mem_sources {n : Nat} (h : n ∈ forms) : n ∉ sources :=
  not_mem_of_bits of_table.1 h

/-! ### Settled characters -/

/-- A **settled** character is its own lower-case form. -/
def Settled (c : Char) : Prop := lowerChar c = [c]

/-- A capital sigma is not settled, so that its place in a word does not matter for settled
characters. -/
theorem Settled.ne_sigma {c : Char} (h : Settled c) : c ≠ 'Σ' := by
  rintro rfl
  exact of_table.2.1 h

/-- No form is mapped any further: the forms and the sources have no bit in common. -/
theorem settled_of_mem_forms {c : Char} (h : c.toNat ∈ forms) : Settled c := by
  have hsources := not_mem_sources h
  have hcapital : ¬('A' ≤ c ∧ c ≤ 'Z') := fun ⟨hA, hZ⟩ => by
    have hA : 0x41 ≤ c.toNat := hA
    have hZ : c.toNat ≤ 0x5A := hZ
    exact hsources (mem_sources (.head _) (by simp [covers, hA, hZ, Nat.mod_one]))
  have hdotted : c.toNat ≠ 0x130 := fun hc => hsources (hc ▸ .head _)
  have hnone : lowerRuns.find? (covers c.toNat) = none :=
    List.find?_eq_none.mpr fun r hr hc => hsources (mem_sources hr hc)
  unfold covers at hnone
  by_cases hascii : c.toNat < 0x80
  · rw [Settled, lowerChar, if_pos hascii, if_neg hcapital]
  · rw [Settled, lowerChar, if_neg hascii, if_neg hdotted, hnone]

theorem settled_ofNat {n : Nat} (h : n ∈ forms) : Settled (Char.ofNat n) := by
  apply settled_of_mem_forms
  by_cases hn : n.isValidChar
  · rw [Char.ofNat, dif_pos hn]
    exact h
  · rw [Char.ofNat, dif_neg hn]
    exact .head _

/-- What a character is mapped to is mapped no further. -/
theorem settled_of_mem_lowerChar {c d : Char} (h : d ∈ lowerChar c) : Settled d := by
  by_cases hself : lowerChar c = [c]
  · rw [hself, List.mem_singleton] at h
    exact h ▸ hself
  · rw [lowerChar] at h hself
    split at h
    case isTrue hascii =>
      split at h
      case isTrue hcapital =>
        rw [List.mem_singleton] at h
        have hA : 0x41 ≤ c.toNat := hcapital.1
        have hZ : c.toNat ≤ 0x5A := hcapital.2
        exact h ▸ settled_ofNat (mem_forms (.head _) (by simp [covers, hA, hZ, Nat.mod_one]))
      case isFalse hcapital => exact absurd ((if_pos hascii).trans (if_neg hcapital)) hself
    case isFalse hascii =>
      rw [if_neg hascii] at hself
      split at h
      case isTrue =>
        obtain rfl | rfl : d = 'i' ∨ d = Char.ofNat 0x307 := by simpa using h
        · exact settled_ofNat (mem_forms_of_written (by simp))
        · exact settled_ofNat (mem_forms_of_written (by simp))
      case isFalse hdotted =>
        rw [if_neg hdotted] at hself
        split at h
        case h_1 hfound =>
          rw [List.mem_singleton] at h
          have hcovers := List.find?_some hfound
          exact h ▸ settled_ofNat (mem_forms (List.mem_of_find?_eq_some hfound) hcovers)
        case h_2 hfound =>
          rw [hfound] at hself
          exact absurd rfl hself

/-! ### Texts -/

/-- A text of settled characters stays as it is. -/
theorem lowerFrom_of_settled {s : List Char} (h : ∀ c ∈ s, Settled c) (before : List Char) :
    lowerFrom before s = s := by
  induction s generalizing before with
  | nil => rfl
  | cons c s ih =>
    obtain ⟨hc, hs⟩ := List.forall_mem_cons.mp h
    rw [lowerFrom, if_neg hc.ne_sigma, hc, ih hs]
    rfl

/-- Lowering a text leaves settled characters only. -/
theorem settled_of_mem_lowerFrom {s before : List Char} {d : Char} (h : d ∈ lowerFrom before s) :
    Settled d := by
  induction s generalizing before with
  | nil => exact nomatch h
  | cons c s ih =>
    rw [lowerFrom] at h
    obtain hhere | hrest := List.mem_append.mp h
    · split at hhere
      case isTrue =>
        -- Either form of a sigma is settled.
        split at hhere <;> rw [List.mem_singleton] at hhere <;> subst hhere <;>
          exact settled_of_mem_forms (mem_forms_of_written (by simp))
      case isFalse => exact settled_of_mem_lowerChar hhere
    · exact ih hrest

/-- The characters of a lower-case form are settled. -/
theorem settled_of_mem_lower {s : String} {c : Char} (h : c ∈ (lower s).toList) : Settled c := by
  rw [lower, String.toList_ofList] at h
  exact settled_of_mem_lowerFrom h

/-- A text of settled characters is in lower case. -/
theorem lower_of_settled {s : String} (h : ∀ c ∈ s.toList, Settled c) : lower s = s := by
  rw [lower, lowerFrom_of_settled h, String.ofList_toList]

/-- **Lower case twice** is lower case once. -/
theorem lower_lower (s : String) : lower (lower s) = lower s :=
  lower_of_settled fun _ => settled_of_mem_lower

/-! ### Letters in either case -/

/-- The texts differ at most in the case of their letters from A to Z. -/
def CaseVariant (s t : String) : Prop := s.toList.map Char.toLower = t.toList.map Char.toLower

theorem toLower_of_not_capital {c : Char} (h : ¬('A' ≤ c ∧ c ≤ 'Z')) : c.toLower = c := dif_neg h

theorem lowerChar_of_ascii {c : Char} (h : c.toNat < 0x80) : lowerChar c = [c.toLower] := by
  have hc := (of_table.2.2 c.toNat h).2
  rwa [Char.ofNat_toNat] at hc

/-- The simple mapping does not leave ASCII, or enter it. -/
theorem isAscii_toLower_iff {c : Char} : c.toLower.toNat < 0x80 ↔ c.toNat < 0x80 := by
  constructor
  · intro h
    by_cases hcapital : 'A' ≤ c ∧ c ≤ 'Z'
    · have hZ : c.toNat ≤ 0x5A := hcapital.2
      exact Nat.lt_of_le_of_lt hZ (by decide)
    · rwa [toLower_of_not_capital hcapital] at h
  · intro h
    have hc := (of_table.2.2 c.toNat h).1
    rwa [Char.ofNat_toNat] at hc

/-- A text in ASCII is lowered character by character. -/
theorem lowerFrom_of_ascii {s : List Char} (h : ∀ c ∈ s, c.toNat < 0x80) (before : List Char) :
    lowerFrom before s = s.map Char.toLower := by
  induction s generalizing before with
  | nil => rfl
  | cons c s ih =>
    obtain ⟨hc, hs⟩ := List.forall_mem_cons.mp h
    have hsigma : c ≠ 'Σ' := by
      rintro rfl
      exact absurd hc (by decide)
    rw [lowerFrom, if_neg hsigma, lowerChar_of_ascii hc, ih hs]
    rfl

/-- **Case.** Variants of an ASCII text have its lower-case form. -/
theorem lower_eq_of_caseVariant {s t : String} (hs : ∀ c ∈ s.toList, c.toNat < 0x80)
    (h : CaseVariant s t) : lower t = lower s := by
  have ht : ∀ c ∈ t.toList, c.toNat < 0x80 := by
    intro c hc
    have hmem : c.toLower ∈ s.toList.map Char.toLower := h ▸ List.mem_map_of_mem hc
    obtain ⟨d, hd, heq⟩ := List.mem_map.mp hmem
    exact isAscii_toLower_iff.mp (heq ▸ isAscii_toLower_iff.mpr (hs d hd))
  rw [lower, lower, lowerFrom_of_ascii hs, lowerFrom_of_ascii ht, h]

end SpeechService.Text
