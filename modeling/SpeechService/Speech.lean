import SpeechService.Tensor

/-!
# Speech

An engine returns speech as a tensor or as an array of doubles, with any shape. A **clip** is the
speech in the form that is encoded: samples in which the channels alternate, and a rate.
`Clip.ofRaw` brings the one into the form of the other.
-/

namespace SpeechService

/-- The sample rate where nothing else is said, in hertz. -/
def defaultSampleRate : Nat := 24000

/-- **Raw speech** as an engine returns it. -/
inductive RawSpeech where
  | tensor (tensor : Tensor)
  | array (values : List Double) (shape : List Nat)
deriving DecidableEq, Repr

/-- The numbers of raw speech in 32 bits, and their shape. -/
def RawSpeech.toHost : RawSpeech → Except EngineError (List Single × List Nat)
  | .tensor t => .ok (t.data, t.shape)
  | .array values shape =>
    if shapeSize shape = .ofNat values.length then .ok (values.map (Binary.convert .single), shape)
    else .error (shapeMismatch "array" shape values.length)

/-- A **clip** of audio. -/
structure Clip where
  samples : List Single
  sampleRate : Nat
  channels : Nat
deriving DecidableEq, Repr

namespace Clip

/-- The samples of each channel. A clip without channels counts as one channel. -/
def frames (c : Clip) : Nat := c.samples.length / max c.channels 1

/-- The length in milliseconds, rounded down; zero if the rate is. -/
def durationMs (c : Clip) : Nat := c.frames * 1000 / c.sampleRate

/-- Samples and channels of raw speech. Dimensions of one do not count; what is left is no
dimension or one (a single channel), or frames by channels. -/
def layout (raw : RawSpeech) : Except SynthesisError (List Single × Nat) :=
  match raw.toHost with
  | .error e => .error (.ofEngine e)
  | .ok (samples, shape) =>
    match shape.filter (· != 1) with
    | [] | [_] => .ok (samples, 1)
    | [_, channels] =>
      if channels ≤ Text.max16 then .ok (samples, channels)
      else .error (.generation ("too many audio channels: " ++ Text.ofNat channels))
    | dims => .error (.generation ("unsupported speech output shape " ++ shapeText dims))

/-- The rate that counts when a processor declares one or none: zero counts as none. -/
def effectiveRate (declared : Option Nat) : Nat :=
  (declared.filter (0 < ·)).getD defaultSampleRate

/-- The clip of raw speech at the rate that a processor declares. -/
def ofRaw (raw : RawSpeech) (declaredRate : Option Nat) : Except SynthesisError Clip := do
  let (samples, channels) ← layout raw
  return ⟨samples, effectiveRate declaredRate, channels⟩

end Clip

end SpeechService
