import SpeechService.Text.Integer

/-!
# Failures

What can go wrong while a text is spoken, from the inside out: a text that cannot be spoken, a
failing engine, a clip that cannot be encoded, a closed gate. A client hears of all of them as
one of three `SynthesisError`s: the request was at fault, the model is not there, or generation
went wrong.
-/

namespace SpeechService

/-- Why a text cannot be spoken. -/
inductive TextError where
  /-- Nothing is left of it once it is trimmed. -/
  | empty
  /-- It has more characters than the ceiling. -/
  | tooLong (maxChars : Nat)
deriving DecidableEq, Repr

/-- The message for a text that cannot be spoken. -/
def TextError.message : TextError → String
  | .empty => "text must not be empty"
  | .tooLong maxChars => "text exceeds max length (" ++ Text.ofNat maxChars ++ ")"

/-- A failure of an engine or of its loading, with a detail in words. -/
inductive EngineError where
  /-- The model could not be loaded. -/
  | load (detail : String)
  /-- The caller's input was refused. -/
  | invalidInput (detail : String)
  /-- The device is missing or the wrong one. -/
  | device (detail : String)
  /-- Generation itself failed. -/
  | inference (detail : String)
  /-- What came out makes no sense. -/
  | output (detail : String)
deriving DecidableEq, Repr

/-- The message of an engine failure. -/
def EngineError.message : EngineError → String
  | .load detail => "Failed to load model: " ++ detail
  | .invalidInput detail => "Invalid input: " ++ detail
  | .device detail => "Device error: " ++ detail
  | .inference detail => "Inference failed: " ++ detail
  | .output detail => "Invalid output: " ++ detail

/-- Why a clip could not be encoded. -/
inductive EncodeError where
  /-- The clip is not well formed. -/
  | invalidInput (detail : String)
  /-- Writing failed. -/
  | encoding (detail : String)
deriving DecidableEq, Repr

/-- The message of an encoding failure. -/
def EncodeError.message : EncodeError → String
  | .invalidInput detail => "Invalid input: " ++ detail
  | .encoding detail => "Encoding error: " ++ detail

/-- The message for a slot that is refused because the gate is closed. -/
def gateClosedMessage : String := "generation gate is closed"

/-- Why a request was not answered with speech. -/
inductive SynthesisError where
  /-- The request is at fault. -/
  | validation (detail : String)
  /-- There is no model to answer with, or it is being shut down. -/
  | notReady (detail : String)
  /-- Generation or what follows it failed. -/
  | generation (detail : String)
deriving DecidableEq, Repr

namespace SynthesisError

/-- The message of a failed request. -/
def message : SynthesisError → String
  | .validation detail => detail
  | .notReady detail => "Model is not loaded: " ++ detail
  | .generation detail => "TTS generation failed: " ++ detail

/-- A text that cannot be spoken is the request's fault. -/
def ofText (e : TextError) : SynthesisError := .validation e.message

/-- A refused input is the request's fault, a failed load means that the model is not there, and
all else is a failure of generation that keeps its own message. -/
def ofEngine : EngineError → SynthesisError
  | .invalidInput detail => .validation detail
  | .load detail => .notReady detail
  | e => .generation e.message

/-- A clip that cannot be encoded is a failure of generation. -/
def ofEncode (e : EncodeError) : SynthesisError := .generation e.message

/-- Whatever stopped the load, the model is not there. -/
def ofLoad (e : EngineError) : SynthesisError := .notReady e.message

/-- A closed gate counts as a model that is not there. -/
def gateClosed : SynthesisError := .notReady gateClosedMessage

end SynthesisError

end SpeechService
