import SpeechService.Wav.Bytes

/-!
# Reading WAV files

A reader for 16-bit files that knows nothing of how they are written: it walks the chunks by their
sizes, takes either kind of format chunk, and checks the sizes that the format chunk repeats. It
accepts a file only if nothing is left over.

A player needs less to tell how long a file is: the rate, the bytes of a frame and the bytes of all
samples, which stand in the **header** of a file (`Wav.header?`).
-/

namespace SpeechService.Wav

/-- What a WAV file says. -/
structure Audio where
  channels : Nat
  sampleRate : Nat
  bitsPerSample : Nat
  codes : List Int
deriving DecidableEq, Repr

/-- A chunk of a file: the letters of its name and its body. -/
structure Chunk where
  name : List UInt8
  body : List UInt8
deriving DecidableEq, Repr

/-- The first `n` bytes and the rest, if there are as many. -/
def split? (n : Nat) (s : List UInt8) : Option (List UInt8 × List UInt8) :=
  if n ≤ s.length then some (s.take n, s.drop n) else none

/-- The chunk at the front. A body of odd size is followed by one byte that does not count. -/
def chunk? (s : List UInt8) : Option (Chunk × List UInt8) := do
  let (name, s) ← split? 4 s
  let (size, s) ← read32? s
  let (body, s) ← split? size s
  if size % 2 = 0 then some (⟨name, body⟩, s)
  else
    let (_, s) ← split? 1 s
    some (⟨name, body⟩, s)

/-- The chunks of a text to its end; `steps` bounds their number. -/
def chunksFrom? : Nat → List UInt8 → Option (List Chunk)
  | _, [] => some []
  | 0, _ :: _ => none
  | steps + 1, s => do
    let (c, s) ← chunk? s
    let cs ← chunksFrom? steps s
    some (c :: cs)

/-- The chunks of a text to its end. -/
def chunks? (s : List UInt8) : Option (List Chunk) := chunksFrom? s.length s

/-- The name that stands for plain samples in an extensible format chunk. -/
def plainSamples : List UInt8 :=
  [0x01, 0x00, 0x00, 0x00, 0x00, 0x00, 0x10, 0x00, 0x80, 0x00, 0x00, 0xAA, 0x00, 0x38, 0x9B, 0x71]

/-- What follows the common fields of a format chunk of the given kind. -/
def extension? (kind : Nat) (s : List UInt8) : Option Unit := do
  if kind = 1 then if s = [] then some () else none
  else if kind = 0xFFFE then
    let (size, s) ← read16? s
    let (_, s) ← read16? s
    let (_, s) ← read32? s
    if size = 22 ∧ s = plainSamples then some () else none
  else none

/-- The channels, the rate and the bits per sample that a format chunk states. -/
def format? (body : List UInt8) : Option (Nat × Nat × Nat) := do
  let (kind, s) ← read16? body
  let (channels, s) ← read16? s
  let (rate, s) ← read32? s
  let (byteRate, s) ← read32? s
  let (blockAlign, s) ← read16? s
  let (bits, s) ← read16? s
  extension? kind s
  if blockAlign = channels * (bits / 8) ∧ byteRate = rate * blockAlign then
    some (channels, rate, bits)
  else none

/-- Reads a file: one RIFF chunk that holds a format chunk and a data chunk. -/
def read? (s : List UInt8) : Option Audio := do
  let (riff, rest) ← chunk? s
  if riff.name = tag "RIFF" ∧ rest = [] then
    let (form, s) ← split? 4 riff.body
    match form == tag "WAVE", chunks? s with
    | true, some [fmt, data] =>
      let (channels, rate, bits) ← format? fmt.body
      let codes ← readCodes? data.body
      if fmt.name = tag "fmt " ∧ data.name = tag "data" ∧ bits = 16 then
        some ⟨channels, rate, bits, codes⟩
      else none
    | _, _ => none
  else none

/-! ### Single fields -/

/-- The integer of two bytes at an offset. -/
def field16? (s : List UInt8) (offset : Nat) : Option Nat := (read16? (s.drop offset)).map Prod.fst

/-- The integer of four bytes at an offset. -/
def field32? (s : List UInt8) (offset : Nat) : Option Nat := (read32? (s.drop offset)).map Prod.fst

/-- What the **header** of a file says about its length: the rate, the bytes of a frame, and the
bytes of all samples. -/
structure Header where
  sampleRate : Nat
  blockAlign : Nat
  dataSize : Nat
deriving DecidableEq, Repr

/-- The frames that a header tells. -/
def Header.frames (h : Header) : Nat := h.dataSize / h.blockAlign

/-- The length in milliseconds that a header tells, rounded down. -/
def Header.durationMs (h : Header) : Nat := 1000 * h.frames / h.sampleRate

/-- Reads the header of a file: its chunks are looked up by their names, and the rate and the bytes
of a frame stand at fixed places in the format chunk. -/
def header? (s : List UInt8) : Option Header := do
  let (riff, _) ← chunk? s
  let (form, s) ← split? 4 riff.body
  let chunks ← chunks? s
  let format ← chunks.find? (·.name == tag "fmt ")
  let data ← chunks.find? (·.name == tag "data")
  let rate ← field32? format.body 4
  let align ← field16? format.body 12
  if riff.name = tag "RIFF" ∧ form = tag "WAVE" then some ⟨rate, align, data.body.length⟩ else none

end SpeechService.Wav
