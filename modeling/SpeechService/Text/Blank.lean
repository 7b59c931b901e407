/-!
# Blank characters and trimming

A character is **blank** when it has the property White_Space. `Text.trim` takes the blanks off
both ends of a text and leaves those in the middle. What it leaves is **trimmed**: it neither begins
nor ends with a blank.
-/

namespace SpeechService.Text

/-- The characters with the property White_Space. -/
def isBlank (c : Char) : Bool :=
  let n := c.toNat
  (9 ≤ n && n ≤ 13) || n == 0x20 || n == 0x85 || n == 0xA0 || n == 0x1680
    || (0x2000 ≤ n && n ≤ 0x200A) || n == 0x2028 || n == 0x2029 || n == 0x202F || n == 0x205F
    || n == 0x3000

/-- The characters without the blanks at their front and at their end. -/
def trimList (s : List Char) : List Char :=
  ((s.dropWhile isBlank).reverse.dropWhile isBlank).reverse

/-- The text without the blanks at its front and at its end. -/
def trim (s : String) : String := String.ofList (trimList s.toList)

/-- A **trimmed** text. -/
structure IsTrimmed (s : String) : Prop where
  head : ∀ c ∈ s.toList.head?, isBlank c = false
  last : ∀ c ∈ s.toList.getLast?, isBlank c = false

theorem isBlank_of_head?_dropWhile {s : List Char} {c : Char}
    (h : c ∈ (s.dropWhile isBlank).head?) : isBlank c = false := by
  have hnot := List.head?_dropWhile_not isBlank s
  rw [Option.mem_def.mp h] at hnot
  exact hnot

theorem isBlank_head_trimList {s : List Char} {c : Char} (h : c ∈ (trimList s).head?) :
    isBlank c = false := by
  -- The end of a text is cut off from its back, so that its front stays.
  have hfront : trimList s <+: s.dropWhile isBlank := by
    rw [← List.reverse_suffix, trimList, List.reverse_reverse]
    exact List.dropWhile_suffix isBlank
  obtain ⟨rest, hrest⟩ := hfront
  refine isBlank_of_head?_dropWhile (s := s) ?_
  rw [← hrest, List.head?_append, Option.mem_def.mp h, Option.some_or]
  exact Option.mem_some_self c

theorem isBlank_getLast_trimList {s : List Char} {c : Char} (h : c ∈ (trimList s).getLast?) :
    isBlank c = false := by
  rw [trimList, List.getLast?_reverse] at h
  exact isBlank_of_head?_dropWhile h

theorem isTrimmed_trim (s : String) : IsTrimmed (trim s) := by
  constructor <;> intro c hc <;> rw [trim, String.toList_ofList] at hc
  · exact isBlank_head_trimList hc
  · exact isBlank_getLast_trimList hc

/-- A text without a character that is not blank. -/
def isAllBlank (s : String) : Bool := s.toList.all isBlank

/-- The trimmed text, unless nothing is left of it. -/
def trimmed? (s : String) : Option String :=
  let t := trim s
  if t.isEmpty then none else some t

end SpeechService.Text
