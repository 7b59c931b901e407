import SpeechService.Text.Unprintable

/-!
# Quoted text in messages

A text in a message stands between double quotes. Quotes and backslashes are escaped, tabs and
line breaks have short escapes, and every other character that would not show is spelled out by
its number.
-/

namespace SpeechService.Text

/-- The characters that stand for `c` between quotes. -/
def quotedChar (c : Char) : List Char :=
  match c with
  | '"' => ['\\', '"']
  | '\\' => ['\\', '\\']
  | '\t' => ['\\', 't']
  | '\r' => ['\\', 'r']
  | '\n' => ['\\', 'n']
  | _ =>
    if c.toNat = 0 then ['\\', '0']
    else if isSpelledOut c then
      ['\\', 'u', Char.ofNat 0x7B] ++ Nat.toDigits 16 c.toNat ++ [Char.ofNat 0x7D]
    else [c]

/-- The text between double quotes. -/
def quoted (s : String) : String :=
  String.ofList ('"' :: s.toList.flatMap quotedChar ++ ['"'])

end SpeechService.Text
