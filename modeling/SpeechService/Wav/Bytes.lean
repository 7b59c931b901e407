/-!
# Little-endian bytes

Unsigned integers of 16 and 32 bits, low byte first, and signed codes of 16 bits as two's
complement. Higher bits are dropped on writing.
-/

namespace SpeechService.Wav

/-- An integer in 16 bits. -/
def le16 (n : Nat) : List UInt8 := [UInt8.ofNat n, UInt8.ofNat (n / 256)]

/-- An integer in 32 bits. -/
def le32 (n : Nat) : List UInt8 := le16 n ++ le16 (n / 65536)

/-- A signed code in 16 bits. -/
def leCode (n : Int) : List UInt8 := le16 (n % 65536).toNat

/-- The letters of a chunk's name. -/
def tag (name : String) : List UInt8 := name.toList.map fun c => UInt8.ofNat c.toNat

/-- Reads an integer of 16 bits. -/
def read16? : List UInt8 → Option (Nat × List UInt8)
  | a :: b :: rest => some (a.toNat + 256 * b.toNat, rest)
  | _ => none

/-- Reads an integer of 32 bits. -/
def read32? (s : List UInt8) : Option (Nat × List UInt8) := do
  let (low, s) ← read16? s
  let (high, s) ← read16? s
  some (low + 65536 * high, s)

/-- The signed code that 16 bits stand for. -/
def codeOfBits (n : Nat) : Int := if n < 32768 then n else (n : Int) - 65536

/-- Reads signed codes of 16 bits to the end. -/
def readCodes? : List UInt8 → Option (List Int)
  | [] => some []
  | [_] => none
  | a :: b :: rest => do
    let codes ← readCodes? rest
    some (codeOfBits (a.toNat + 256 * b.toNat) :: codes)

end SpeechService.Wav
