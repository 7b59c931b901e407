import SpeechService.Wav.Writer

/-!
# Encoders

An encoder turns a clip into a file that a client can play.
-/

namespace SpeechService

/-- An **encoder** of clips. -/
structure Encoder where
  contentType : String
  encode : Clip → Except EncodeError (List UInt8)

/-- The encoder of WAV files. -/
def Wav.encoder : Encoder := ⟨Wav.contentType, Wav.encode⟩

/-- A **file** with speech, and what is told about it. -/
structure SpokenFile where
  content : List UInt8
  contentType : String
  sampleRate : Nat
  durationMs : Nat
deriving DecidableEq, Repr

/-- The file of a clip. -/
def Encoder.file (e : Encoder) (clip : Clip) : Except SynthesisError SpokenFile :=
  match e.encode clip with
  | .ok content => .ok ⟨content, e.contentType, clip.sampleRate, clip.durationMs⟩
  | .error cause => .error (.ofEncode cause)

end SpeechService
