import SpeechService.Binary.Number

/-!
# Samples of 16 bits

A sample is clipped to the range from -1 to 1, scaled to 32767 in 32-bit numbers, and rounded to
an integer, a half away from zero. All steps are exact on the magnitude, so the sign plays no part
in them.
-/

namespace SpeechService.Wav

open SpeechService.Binary (Format)

/-- The code of the loudest sample. -/
def fullScale : Nat := 32767

/-- The magnitude one, in multiples of the least positive one. -/
def one : Nat := Nat.pow 2 Format.single.depth

/-- The code of the magnitude of a finite sample. -/
def amplitude (x : Single) : Nat :=
  (Binary.ofRatio .single false (min x.units one * fullScale) one).rounded

/-- The **code** of a sample. What is not a finite number is silence. -/
def pcm (x : Single) : Int :=
  if x.isFinite then (if x.negative then -amplitude x else amplitude x) else 0

end SpeechService.Wav
