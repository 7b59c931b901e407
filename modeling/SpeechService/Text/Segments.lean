/-!
# Segments

A text is cut at every place where a mark stands. There is always one segment more than there are
marks, and `segments` loses nothing but the marks.
-/

namespace SpeechService.Text

/-- The segments of a text between the marks, as lists of characters. -/
def segmentLists (mark : Char) : List Char → List (List Char)
  | [] => [[]]
  | c :: rest =>
    match segmentLists mark rest with
    | [] => []
    | first :: others => if c = mark then [] :: first :: others else (c :: first) :: others

/-- The segments of a text between the marks. -/
def segments (mark : Char) (s : String) : List String :=
  (segmentLists mark s.toList).map String.ofList

end SpeechService.Text
