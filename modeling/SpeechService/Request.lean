import SpeechService.Binary.Number
import SpeechService.Failure
import SpeechService.Text.Blank

/-!
# Requests

A request carries a text and, optionally, a voice, a guidance scale and a ceiling on tokens.
`SpokenText.parse` says which texts are spoken and in which form; `Defaults.resolve` takes every
parameter from the request where it is usable and from the defaults where it is not, so that it
cannot fail.
-/

namespace SpeechService

/-- A **text to be spoken**: it has no blanks at its ends, and there is something of it. -/
@[ext]
structure SpokenText where
  text : String
  isTrimmed : Text.IsTrimmed text
  ne_empty : text ≠ ""
deriving DecidableEq, Repr

namespace SpokenText

/-- The number of characters. -/
def size (t : SpokenText) : Nat := t.text.length

/-- Trims a text and checks that something is left of it and that it has at most `maxChars`
characters. -/
def parse (maxChars : Nat) (given : String) : Except TextError SpokenText :=
  let text := Text.trim given
  if hempty : text = "" then .error .empty
  else if maxChars < text.length then .error (.tooLong maxChars)
  else .ok ⟨text, Text.isTrimmed_trim given, hempty⟩

end SpokenText

/-- A **request** for speech, as it was made. -/
structure Request where
  text : String
  voice : Option String := none
  cfgScale : Option Double := none
  maxTokens : Option Int := none
deriving DecidableEq, Repr

/-- What generation needs to know beside the text. -/
structure Parameters where
  /-- Without a voice, the engine takes one of its own. -/
  voice : Option String
  cfgScale : Double
  maxTokens : Nat
deriving DecidableEq, Repr

/-- The **defaults** for what a request leaves open. -/
structure Defaults where
  voice : Option String := none
  cfgScale : Double := .ofNat .double 3
  maxTokens : Nat := 2048
deriving DecidableEq, Repr

namespace Defaults

/-- The parameters of a request: a voice that is not blank, a guidance scale that is finite and
above zero and a positive number of tokens are taken from it, clamped to 32 bits; the defaults
stand in for all else. -/
def resolve (defaults : Defaults) (request : Request) : Parameters where
  voice := (request.voice.bind Text.trimmed?).or defaults.voice
  cfgScale := (request.cfgScale.filter Binary.isPositive).getD defaults.cfgScale
  maxTokens :=
    ((request.maxTokens.filter (0 < ·)).map fun n => min n.toNat Text.max32).getD
      defaults.maxTokens

end Defaults

end SpeechService
