import Mathlib.Data.List.DropRight
import SpeechService.Text.Blank

/-!
# Trimmed texts

A text `t` **trims** `s` when it is trimmed and `s` is `t` between blanks. There is exactly one such
text, which is the one that `Text.trim` gives (`Text.trims_iff`); so what is said of `Text.trim`
elsewhere can be said without looking at how it goes through a text.
-/

namespace SpeechService.Text

/-- The text `t` is what is left of `s` without the blanks around it. -/
structure Trims (s t : String) : Prop where
  isTrimmed : IsTrimmed t
  between : ∃ front back, s.toList = front ++ t.toList ++ back ∧
    (∀ c ∈ front, isBlank c = true) ∧ ∀ c ∈ back, isBlank c = true

/-! ### What trimming leaves -/

theorem trimList_eq (s : List Char) :
    trimList s = (s.dropWhile isBlank).rdropWhile isBlank := rfl

/-- The blanks that trimming takes off. -/
theorem exists_eq_append_trimList (s : List Char) : ∃ front back, s = front ++ trimList s ++ back ∧
    (∀ c ∈ front, isBlank c = true) ∧ ∀ c ∈ back, isBlank c = true := by
  refine ⟨s.takeWhile isBlank, (s.dropWhile isBlank).rtakeWhile isBlank, ?_, ?_, ?_⟩
  · rw [trimList_eq, List.append_assoc, List.rdropWhile_append_rtakeWhile,
      List.takeWhile_append_dropWhile]
  · exact fun c hc => List.mem_takeWhile_imp hc
  · exact fun c hc => List.mem_rtakeWhile_imp hc

/-- What trimming leaves is the text without the blanks around it. -/
theorem trims_trim (s : String) : Trims s (trim s) where
  isTrimmed := isTrimmed_trim s
  between := by
    rw [trim, String.toList_ofList]
    exact exists_eq_append_trimList s.toList

/-! ### Nothing else does -/

theorem dropWhile_isBlank_eq_self {s : List Char} (h : ∀ c ∈ s.head?, isBlank c = false) :
    s.dropWhile isBlank = s := by
  cases s with
  | nil => rfl
  | cons c rest =>
    have hc : ¬isBlank c = true := Bool.eq_false_iff.mp (h c rfl)
    exact List.dropWhile_cons_of_neg hc

/-- A text between blanks. -/
theorem trimList_append {front t back : List Char} (hfront : ∀ c ∈ front, isBlank c = true)
    (hback : ∀ c ∈ back, isBlank c = true) (hhead : ∀ c ∈ t.head?, isBlank c = false)
    (hlast : ∀ c ∈ t.getLast?, isBlank c = false) : trimList (front ++ t ++ back) = t := by
  rw [trimList, List.append_assoc, List.dropWhile_append_of_pos hfront]
  rcases eq_or_ne t [] with rfl | hne
  · rw [List.nil_append, List.dropWhile_eq_nil_iff.mpr hback]
    rfl
  have hleft : (t ++ back).dropWhile isBlank = t ++ back := by
    refine dropWhile_isBlank_eq_self fun c hc => hhead c ?_
    rwa [List.head?_append_of_ne_nil _ hne] at hc
  have hright : t.reverse.dropWhile isBlank = t.reverse := by
    refine dropWhile_isBlank_eq_self fun c hc => hlast c ?_
    rwa [List.head?_reverse] at hc
  have hreverse : ∀ c ∈ back.reverse, isBlank c = true := fun c hc =>
    hback c (List.mem_reverse.mp hc)
  rw [hleft, List.reverse_append, List.dropWhile_append_of_pos hreverse, hright,
    List.reverse_reverse]

/-- **Trimming** finds the one text that is left without the blanks around it. -/
theorem trims_iff {s t : String} : Trims s t ↔ trim s = t := by
  constructor
  · rintro ⟨⟨hhead, hlast⟩, front, back, hs, hfront, hback⟩
    rw [trim, hs, trimList_append hfront hback hhead hlast, String.ofList_toList]
  · rintro rfl
    exact trims_trim s

/-- What is trimmed stays as it is. -/
theorem trim_eq_self_iff {s : String} : trim s = s ↔ IsTrimmed s := by
  constructor
  · intro h
    exact h ▸ (trims_trim s).isTrimmed
  · intro h
    exact trims_iff.mp ⟨h, [], [], by simp, by simp, by simp⟩

/-! ### Blank texts -/

theorem isAllBlank_iff {s : String} : isAllBlank s = true ↔ ∀ c ∈ s.toList, isBlank c = true :=
  List.all_eq_true

/-- Nothing is left of a text that has only blanks, and something of any other. -/
theorem trim_eq_empty_iff {s : String} : trim s = "" ↔ isAllBlank s = true := by
  rw [isAllBlank_iff]
  constructor
  · intro h
    obtain ⟨-, front, back, hs, hfront, hback⟩ := trims_iff.mpr h
    intro c hc
    rw [hs, List.mem_append, List.mem_append] at hc
    rcases hc with (hc | hc) | hc
    · exact hfront c hc
    · exact absurd hc (by simp)
    · exact hback c hc
  · intro h
    refine trims_iff.mp ⟨⟨by simp, by simp⟩, s.toList, [], by simp, h, by simp⟩

theorem trimmed?_eq_some_iff {s t : String} : trimmed? s = some t ↔ Trims s t ∧ t ≠ "" := by
  rw [trims_iff, trimmed?]
  by_cases h : trim s = ""
  · rw [h]
    constructor
    · intro hsome
      exact nomatch hsome
    · rintro ⟨rfl, hne⟩
      exact absurd rfl hne
  · have hempty : (trim s).isEmpty = false := by simpa using h
    simp only [hempty, Bool.false_eq_true, if_false, Option.some.injEq]
    constructor
    · rintro rfl
      exact ⟨rfl, h⟩
    · exact fun hs => hs.1

theorem trimmed?_eq_none_iff {s : String} : trimmed? s = none ↔ isAllBlank s = true := by
  rw [← trim_eq_empty_iff, trimmed?]
  by_cases h : trim s = "" <;> simp [h]

end SpeechService.Text
