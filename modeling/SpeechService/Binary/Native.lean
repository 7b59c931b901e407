import SpeechService.Binary.Number

/-!
# Native arithmetic

Bit patterns as the numbers that the machine calculates with, and back. The bits stay the same.
-/

namespace SpeechService.Binary

/-- A pattern of 32 bits as a native number. -/
def toFloat32 (x : Single) : Float32 := Float32.ofBits (UInt32.ofNat x.bits)

/-- The pattern of a native number of 32 bits. -/
def ofFloat32 (x : Float32) : Single := ofBits .single x.toBits.toNat

/-- A pattern of 64 bits as a native number. -/
def toFloat (x : Double) : Float := Float.ofBits (UInt64.ofNat x.bits)

/-- The pattern of a native number of 64 bits. -/
def ofFloat (x : Float) : Double := ofBits .double x.toBits.toNat

end SpeechService.Binary
