import SpeechService.Binary.Native
import SpeechService.Speech
import SpeechService.Synthetic.Sine

/-!
# Tones

Every token sounds as one tone: a block of samples whose pitch depends on the token. The block
fades in at its front and out at its end, by an **envelope** that is an exact fraction of the full
amplitude at every position.
-/

namespace SpeechService.Tone

/-- The longest fade, in samples. -/
def maxFade : Nat := 64

/-- The length of the fades of a block: never more than half of it. -/
def fade (size : Nat) : Nat := min maxFade (size / 2)

/-- A fraction of the full amplitude. -/
structure Fraction where
  num : Nat
  den : Nat
deriving DecidableEq, Repr

/-- The envelope of a block at a position. -/
def envelope (size i : Nat) : Fraction :=
  if i < fade size then ⟨i, fade size⟩
  else if size - fade size ≤ i then ⟨size - i, fade size⟩
  else ⟨1, 1⟩

/-- A fraction as a number of 32 bits. -/
def Fraction.toFloat32 (q : Fraction) : Float32 := Float32.ofNat q.num / Float32.ofNat q.den

/-- The pitch where no voice is chosen, in hertz. -/
def basePitch : Single := .ofNat .single 220

/-- The pitch of a voice, from 110 to 329 hertz: a hash of the bytes of its name. -/
def pitchOf (voice : String) : Nat :=
  let hash := voice.toUTF8.toList.foldl
    (fun (h : UInt32) b => (h ^^^ b.toUInt32) * 0x01000193) 0x811C9DC5
  110 + hash.toNat % 220

/-- The amplitude for a guidance scale; it grows with the scale and stays below one half. -/
def amplitude (cfgScale : Double) : Single :=
  let scale := cfgScale.toFloat
  .convert .single (.ofFloat (0.5 * scale / (1.0 + scale)))

/-- The number of a token, clamped to 32 bits. -/
def tokenNumber (token : Single) : Nat := token.clampNat Text.max32 Binary.integerPart

/-- The number pi in 32 bits. -/
def pi : Float32 := Float32.ofBits 0x40490FDB

/-- The angle from one sample of a token's tone to the next: twelve tones divide the octave above
the pitch. -/
def angle (pitch : Single) (token : Single) : Float32 :=
  let semitone := Float32.ofNat (tokenNumber token % 12)
  let frequency := pitch.toFloat32 * (1.0 + semitone / 12.0)
  2.0 * pi * frequency / Float32.ofNat defaultSampleRate

/-- One sample of a tone. -/
def sample (size : Nat) (angle amplitude : Float32) (i : Nat) : Single :=
  .ofFloat32 (Sine.sin (angle * Float32.ofNat i) * amplitude * (envelope size i).toFloat32)

/-- The block of a token. -/
def block (size : Nat) (pitch amplitude : Single) (token : Single) : List Single :=
  (List.range size).map (sample size (angle pitch token) amplitude.toFloat32)

/-- How many turns are taken: one for each token, but no more than a limit. -/
def turns (maxTokens : Nat) (tokens : List Single) : Nat :=
  if tokens.isEmpty then 0 else min tokens.length maxTokens

/-- The token of a turn; after the last token the first one is next. -/
def tokenAt? (tokens : List Single) (turn : Nat) : Option Single := tokens[turn % tokens.length]?

/-- The samples of a turn. -/
def samplesAt (size : Nat) (pitch amplitude : Single) (tokens : List Single) (turn : Nat) :
    List Single :=
  ((tokenAt? tokens turn).map (block size pitch amplitude)).getD []

/-- The samples of all turns, one turn after another. -/
def render (size : Nat) (pitch amplitude : Single) (maxTokens : Nat) (tokens : List Single) :
    List Single :=
  (List.range (turns maxTokens tokens)).flatMap (samplesAt size pitch amplitude tokens)

end SpeechService.Tone
