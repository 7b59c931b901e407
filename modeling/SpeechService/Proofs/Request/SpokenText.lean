import SpeechService.Proofs.Text.Trimming
import SpeechService.Request

/-!
# Texts to be spoken

A text that is not blank can be **cut** in exactly one way into blanks, a core that begins and ends
with other characters, and blanks again (`Text.existsUnique_cut`). What comes of a text depends on
its core only: the core is spoken if it has no more characters than the ceiling
(`SpokenText.parse_of_cut`). A core is its own core, so that what was accepted is accepted again,
and the more the ceiling allows, the more is accepted (`SpokenText.reads_exactly`).
-/

namespace SpeechService

namespace Text

/-- A **cut** of a text: blanks, a core that begins and ends with characters that are not blank, and
blanks. -/
structure Cut (s front core back : String) : Prop where
  eq : s = front ++ core ++ back
  front : isAllBlank front = true
  head : ∃ c, core.toList.head? = some c ∧ isBlank c = false
  last : ∃ c, core.toList.getLast? = some c ∧ isBlank c = false
  back : isAllBlank back = true

variable {s front core back : String}

theorem Cut.trims (h : Cut s front core back) : Trims s core where
  isTrimmed := by
    obtain ⟨a, ha, hhead⟩ := h.head
    obtain ⟨b, hb, hlast⟩ := h.last
    exact ⟨by simpa [ha] using hhead, by simpa [hb] using hlast⟩
  between := ⟨front.toList, back.toList,
    by rw [h.eq, String.toList_append, String.toList_append],
    isAllBlank_iff.mp h.front, isAllBlank_iff.mp h.back⟩

theorem Cut.core_ne_empty (h : Cut s front core back) : core ≠ "" := by
  obtain ⟨c, hc, -⟩ := h.head
  rintro rfl
  exact nomatch hc

/-- The core of a cut is a text to be spoken. -/
def Cut.spoken (h : Cut s front core back) : SpokenText :=
  ⟨core, h.trims.isTrimmed, h.core_ne_empty⟩

/-- A trimmed text between blanks is a cut, if there is anything of it. -/
theorem cut_of_isTrimmed (ht : IsTrimmed core) (hne : core ≠ "")
    (hfront : isAllBlank front = true) (hback : isAllBlank back = true) :
    Cut (front ++ core ++ back) front core back := by
  have hlist : core.toList ≠ [] := by simpa using hne
  refine ⟨rfl, hfront, ⟨core.toList.head hlist, ?_, ?_⟩, ⟨core.toList.getLast hlist, ?_, ?_⟩, hback⟩
  · exact List.head?_eq_some_head hlist
  · exact ht.head _ (List.head?_eq_some_head hlist)
  · exact List.getLast?_eq_some_getLast hlist
  · exact ht.last _ (List.getLast?_eq_some_getLast hlist)

/-- The front of a cut is all that is blank before the first other character. -/
theorem Cut.front_eq (h : Cut s front core back) : front.toList = s.toList.takeWhile isBlank := by
  obtain ⟨c, hc, hblank⟩ := h.head
  obtain ⟨rest, hrest⟩ := List.head?_eq_some_iff.mp hc
  have hstop : ¬isBlank c = true := Bool.eq_false_iff.mp hblank
  rw [h.eq, String.toList_append, String.toList_append, List.append_assoc,
    List.takeWhile_append_of_pos (isAllBlank_iff.mp h.front), hrest, List.cons_append,
    List.takeWhile_cons_of_neg hstop, List.append_nil]

/-- **One cut.** A text that is not blank is cut in exactly one way. -/
theorem existsUnique_cut (h : ¬∀ c ∈ s.toList, isBlank c = true) :
    ∃! d : String × String × String, Cut s d.1 d.2.1 d.2.2 := by
  obtain ⟨front, back, hs, hfront, hback⟩ := (trims_trim s).between
  have hne : trim s ≠ "" := fun hempty => h (isAllBlank_iff.mp (trim_eq_empty_iff.mp hempty))
  have heq : s = String.ofList front ++ trim s ++ String.ofList back := by
    rw [← String.toList_inj]
    simpa using hs
  have hcut : Cut s (.ofList front) (trim s) (.ofList back) := by
    have hfront : isAllBlank (.ofList front) = true := by
      rwa [isAllBlank_iff, String.toList_ofList]
    have hback : isAllBlank (.ofList back) = true := by
      rwa [isAllBlank_iff, String.toList_ofList]
    have hcut := cut_of_isTrimmed (trims_trim s).isTrimmed hne hfront hback
    rwa [← heq] at hcut
  refine ⟨(.ofList front, trim s, .ofList back), hcut, fun ⟨front', core', back'⟩ hcut' => ?_⟩
  -- The core is what trimming leaves, and the front ends where it begins.
  obtain rfl : trim s = core' := trims_iff.mp hcut'.trims
  obtain rfl : front' = .ofList front :=
    String.toList_inj.mp (hcut'.front_eq.trans hcut.front_eq.symm)
  obtain rfl : back' = .ofList back := String.append_right_inj _ |>.mp (hcut'.eq.symm.trans hcut.eq)
  rfl

end Text

namespace SpokenText

open Text (isBlank isAllBlank Cut)

variable {maxChars : Nat} {given front core back : String} {t : SpokenText}

/-- What a text comes to depends on what trimming leaves of it. -/
theorem parse_congr {other : String} (h : Text.trim given = Text.trim other) :
    parse maxChars given = parse maxChars other := by
  simp only [parse, h]

/-- A text that is spoken may stand between any blanks. -/
theorem cut_text (t : SpokenText) (hfront : isAllBlank front = true)
    (hback : isAllBlank back = true) : Cut (front ++ t.text ++ back) front t.text back :=
  Text.cut_of_isTrimmed t.isTrimmed t.ne_empty hfront hback

/-- A text of which something is left, but not too much, is spoken. -/
theorem exists_parse_eq_ok (hne : Text.trim given ≠ "")
    (hle : (Text.trim given).length ≤ maxChars) :
    ∃ t, parse maxChars given = .ok t ∧ t.text = Text.trim given := by
  refine ⟨⟨Text.trim given, Text.isTrimmed_trim given, hne⟩, ?_, rfl⟩
  rw [parse, dif_neg hne, if_neg hle.not_gt]

theorem parse_of_lt (hne : Text.trim given ≠ "") (hlt : maxChars < (Text.trim given).length) :
    parse maxChars given = .error (.tooLong maxChars) := by
  rw [parse, dif_neg hne, if_pos hlt]

theorem parse_of_blank (h : ∀ c ∈ given.toList, isBlank c = true) :
    parse maxChars given = .error .empty :=
  dif_pos (Text.trim_eq_empty_iff.mpr (Text.isAllBlank_iff.mpr h))

/-- **What a text comes to** is decided by its core and the number of characters in it. -/
theorem parse_of_cut (h : Cut given front core back) : parse maxChars given =
    if core.toList.length ≤ maxChars then .ok h.spoken else .error (.tooLong maxChars) := by
  have hcore : Text.trim given = core := Text.trims_iff.mp h.trims
  have hne : Text.trim given ≠ "" := hcore ▸ h.core_ne_empty
  rw [String.length_toList]
  split
  · next hle =>
    obtain ⟨t, ht, htext⟩ := exists_parse_eq_ok hne (hcore ▸ hle)
    rw [ht, SpokenText.ext (htext.trans hcore : t.text = h.spoken.text)]
  · next hlt => exact parse_of_lt hne (hcore ▸ Nat.not_le.mp hlt)

/-- A text that is accepted has a core, which is what is spoken. -/
theorem exists_cut_of_parse (h : parse maxChars given = .ok t) :
    ∃ front back, Cut given front t.text back ∧ t.text.toList.length ≤ maxChars := by
  by_cases hblank : ∀ c ∈ given.toList, isBlank c = true
  · exact nomatch (parse_of_blank hblank).symm.trans h
  · obtain ⟨⟨front, core, back⟩, hcut, -⟩ := Text.existsUnique_cut hblank
    rw [parse_of_cut hcut] at h
    split at h
    · next hle =>
      obtain rfl := Except.ok.inj h
      exact ⟨front, back, hcut, hle⟩
    · exact nomatch h

/-- How a text is read with a ceiling on its characters. -/
structure ReadExactly (maxChars : Nat) (given : String) : Prop where
  /-- Blank texts are empty, and no others. -/
  empty : parse maxChars given = .error .empty ↔ ∀ c ∈ given.toList, isBlank c = true
  /-- Any other text is cut in exactly one way. -/
  cut : (¬∀ c ∈ given.toList, isBlank c = true) →
    ∃! d : String × String × String, Cut given d.1 d.2.1 d.2.2
  /-- Its core is spoken if the ceiling allows for it. -/
  core : ∀ front core back (h : Cut given front core back), parse maxChars given =
    if core.toList.length ≤ maxChars then .ok h.spoken else .error (.tooLong maxChars)
  /-- The size of what is spoken is the number of its characters. -/
  size : ∀ t, parse maxChars given = .ok t → t.size = t.text.toList.length
  /-- What is spoken is accepted again, with any blanks around it. -/
  again : ∀ t front back, parse maxChars given = .ok t → isAllBlank front = true →
    isAllBlank back = true → parse maxChars (front ++ t.text ++ back) = .ok t
  /-- A higher ceiling accepts what a lower one does. -/
  mono : ∀ t higher, parse maxChars given = .ok t → maxChars ≤ higher →
    parse higher given = .ok t

/-- **Reading texts**, for all texts and ceilings. -/
theorem reads_exactly (maxChars : Nat) (given : String) : ReadExactly maxChars given where
  empty := by
    refine ⟨fun h => ?_, parse_of_blank⟩
    by_contra hblank
    obtain ⟨⟨front, core, back⟩, hcut, -⟩ := Text.existsUnique_cut hblank
    rw [parse_of_cut hcut] at h
    split at h <;> simp at h
  cut := Text.existsUnique_cut
  core _ _ _ := parse_of_cut
  size t _ := t.text.length_toList.symm
  again t front back h hfront hback := by
    obtain ⟨_, _, -, hle⟩ := exists_cut_of_parse h
    rw [parse_of_cut (t.cut_text hfront hback), if_pos hle]
    rfl
  mono t higher h hhigher := by
    obtain ⟨_, _, hcut, hle⟩ := exists_cut_of_parse h
    rw [parse_of_cut hcut, if_pos (hle.trans hhigher)]
    rfl

/-- Blanks inside a text stay, and characters are counted, not bytes. -/
example : (parse 5 "\u2003你 好\t呀\n").map text = .ok "你 好\t呀" ∧
    parse 4 "\u2003你 好\t呀\n" = .error (.tooLong 4) := by decide +kernel

end SpokenText

end SpeechService
