import SpeechService.Speech
import SpeechService.Wav.Bytes
import SpeechService.Wav.Pcm

/-!
# Writing WAV files

A clip is written as a RIFF file of 16-bit samples. Up to two channels take the plain format
chunk; from three channels on, the extensible one, which also says which loudspeaker each channel
belongs to. A clip is refused when it has no rate, no channels, or a number of samples that its
channels do not divide.
-/

namespace SpeechService.Wav

/-- The content type of WAV files. -/
def contentType : String := "audio/wav"

/-- The bytes of one sample. -/
def sampleBytes : Nat := 2

/-- Sixteen bytes that name plain samples in the extensible format. -/
def pcmGuid : List UInt8 :=
  [0x01, 0x00, 0x00, 0x00, 0x00, 0x00, 0x10, 0x00, 0x80, 0x00, 0x00, 0xAA, 0x00, 0x38, 0x9B, 0x71]

/-- The loudspeakers that are given to the channels, the lowest of 18 bits first. -/
def channelMask (channels : Nat) : Nat := Nat.pow 2 (min channels 18) - 1

/-- What both kinds of format chunk say: the kind, the channels, the rate, the bytes per second,
the bytes per frame and the bits per sample. -/
def formatFields (kind channels sampleRate : Nat) : List UInt8 :=
  le16 kind ++ le16 channels ++ le32 sampleRate ++ le32 (sampleRate * sampleBytes * channels)
    ++ le16 (sampleBytes * channels) ++ le16 (8 * sampleBytes)

/-- The body of the format chunk. -/
def formatBody (channels sampleRate : Nat) : List UInt8 :=
  if channels ≤ 2 then formatFields 1 channels sampleRate
  else formatFields 0xFFFE channels sampleRate ++ le16 22 ++ le16 (8 * sampleBytes)
    ++ le32 (channelMask channels) ++ pcmGuid

/-- A chunk: its name, its size and its body. -/
def chunk (name : String) (body : List UInt8) : List UInt8 := tag name ++ le32 body.length ++ body

/-- The file of samples that are codes already. -/
def file (channels sampleRate : Nat) (codes : List Int) : List UInt8 :=
  chunk "RIFF" (tag "WAVE" ++ chunk "fmt " (formatBody channels sampleRate)
    ++ chunk "data" (codes.flatMap leCode))

/-- Why a clip cannot be written, if it cannot. -/
def refusal? (c : Clip) : Option EncodeError :=
  if c.sampleRate = 0 then some (.invalidInput "sample rate must be positive")
  else if c.channels = 0 then some (.invalidInput "channel count must be positive")
  else if c.samples.length % c.channels ≠ 0 then
    some (.invalidInput (Text.ofNat c.samples.length ++ " samples cannot be split into "
      ++ Text.ofNat c.channels ++ " channels"))
  else none

/-- The file of a clip. -/
def encode (c : Clip) : Except EncodeError (List UInt8) :=
  match refusal? c with
  | some e => .error e
  | none => .ok (file c.channels c.sampleRate (c.samples.map pcm))

end SpeechService.Wav
