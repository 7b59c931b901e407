import SpeechService.Text.CaseTable

/-!
# Lower case

The full lower-case form of a text: character by character, except that a capital I with a dot
becomes two characters and a capital sigma at the end of a word takes its final form.
-/

namespace SpeechService.Text

/-- The lower-case form of one character, out of context. -/
def lowerChar (c : Char) : List Char :=
  let n := c.toNat
  if n < 0x80 then
    if 'A' ≤ c ∧ c ≤ 'Z' then [Char.ofNat (n + 32)] else [c]
  else if n = 0x130 then ['i', Char.ofNat 0x307]
  else
    match lowerRuns.find? fun (first, last, step, _) =>
        first ≤ n && n ≤ last && (n - first) % step == 0 with
    | some (_, _, _, distance) => [Char.ofNat (n + distance).toNat]
    | none => [c]

/-- A letter that has case. -/
def isCased (c : Char) : Bool := within casedBounds c.toNat

/-- A character that is skipped when the end of a word is looked for. -/
def isCaseIgnorable (c : Char) : Bool := within caseIgnorableBounds c.toNat

/-- Whether the nearest character that is not skipped is a cased letter. -/
def touchesCased (s : List Char) : Bool :=
  match s.dropWhile isCaseIgnorable with
  | [] => false
  | c :: _ => isCased c

/-- The lower-case form of characters that follow `before`, given nearest first. -/
def lowerFrom (before : List Char) : List Char → List Char
  | [] => []
  | c :: rest =>
    let here :=
      if c = 'Σ' then
        if touchesCased before && !touchesCased rest then ['ς'] else ['σ']
      else lowerChar c
    here ++ lowerFrom (c :: before) rest

/-- The lower-case form of a text. -/
def lower (s : String) : String := String.ofList (lowerFrom [] s.toList)

end SpeechService.Text
