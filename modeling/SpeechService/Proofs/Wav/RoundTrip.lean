import SpeechService.Proofs.Binary.Nearest
import SpeechService.Wav.Reader
import SpeechService.Wav.Writer

/-!
# Reading back what was written

The reader of WAV files is told nothing of how they are written. Still it reads from the file of a
clip the channels, the rate, and the code of every sample in order, and leaves nothing over
(`Wav.read?_file`), with either kind of format chunk. `Wav.encode_exact` puts this together with
the exact condition under which a clip is written at all, and with what the four sizes in the
header say.

The steps follow the layers of the format: integers of two and four bytes, codes of samples, chunks,
and the format chunk. That a code of a sample fits two bytes is a fact about rounding
(`Wav.pcm_bounded`).
-/

namespace SpeechService.Wav

open SpeechService.Binary (Format)

/-! ### Samples -/

/-- The code of the format of 32 bits that stands for the full scale: 32767 has 15 bits, so that
its 24 leading bits count steps of `2 ^ 140` least magnitudes. -/
private theorem units_fullScale :
    Format.single.units (140 * Format.single.binade + 32767 * 512) = fullScale * one := by
  decide +kernel

/-- No sample is louder than the full scale. -/
theorem amplitude_le (x : Single) : amplitude x ≤ fullScale := by
  have hpos : 0 < one := Nat.two_pow_pos _
  have hclip : min x.units one * fullScale * Nat.pow 2 Format.single.depth
      ≤ Format.single.units (140 * Format.single.binade + 32767 * 512) * one := by
    rw [units_fullScale, Nat.mul_comm fullScale]
    exact Nat.mul_le_mul_right _ (Nat.mul_le_mul_right _ (Nat.min_le_right _ _))
  refine Binary.rounded_le ?_
  have hcode := Format.single.units_strictMono.monotone (Format.single.nearest_le hpos hclip)
  rw [units_fullScale] at hcode
  exact hcode

/-- **Codes fit.** Every code lies between the full scales of both signs. -/
theorem pcm_bounded (x : Single) : -32767 ≤ pcm x ∧ pcm x ≤ 32767 := by
  have h := amplitude_le x
  rw [fullScale] at h
  rw [pcm]
  split
  · split <;> omega
  · omega

/-- The codes of samples fit 16 bits with a sign. -/
theorem map_pcm_bounded (samples : List Single) :
    ∀ n ∈ samples.map pcm, -32768 ≤ n ∧ n < 32768 := by
  intro n hn
  obtain ⟨x, -, rfl⟩ := List.mem_map.mp hn
  have hcode := pcm_bounded x
  omega

/-! ### Integers -/

theorem length_le32 (n : Nat) : (le32 n).length = 4 := rfl

/-- Two bytes are read back. -/
theorem read16?_le16 {n : Nat} (h : n < 65536) (rest : List UInt8) :
    read16? (le16 n ++ rest) = some (n, rest) := by
  have hlow : (UInt8.ofNat n).toNat = n % 256 := rfl
  have hhigh : (UInt8.ofNat (n / 256)).toNat = n / 256 % 256 := rfl
  have hsum : n % 256 + 256 * (n / 256 % 256) = n := by omega
  show some ((UInt8.ofNat n).toNat + 256 * (UInt8.ofNat (n / 256)).toNat, rest) = some (n, rest)
  rw [hlow, hhigh, hsum]

/-- Of an integer in two bytes the upper part is dropped. -/
theorem le16_mod (n : Nat) : le16 (n % 65536) = le16 n := by
  have hlow : UInt8.ofNat (n % 65536) = UInt8.ofNat n := by
    apply UInt8.toNat_inj.mp
    show n % 65536 % 256 = n % 256
    omega
  have hhigh : UInt8.ofNat (n % 65536 / 256) = UInt8.ofNat (n / 256) := by
    apply UInt8.toNat_inj.mp
    show n % 65536 / 256 % 256 = n / 256 % 256
    omega
  rw [le16, hlow, hhigh, ← le16]

theorem read32?_le32 {n : Nat} (h : n < 4294967296) (rest : List UInt8) :
    read32? (le32 n ++ rest) = some (n, rest) := by
  have hlow := read16?_le16 (n := n % 65536) (by omega) (le16 (n / 65536) ++ rest)
  have hhigh := read16?_le16 (n := n / 65536) (by omega) rest
  have hsum : n % 65536 + 65536 * (n / 65536) = n := by omega
  rw [le32, List.append_assoc, ← le16_mod n, read32?, hlow]
  simp only [bind, Option.bind, hhigh, hsum]

/-! ### Codes of samples -/

/-- A code is read back from its bits. -/
theorem codeOfBits_mod {n : Int} (h : -32768 ≤ n ∧ n < 32768) :
    codeOfBits (n % 65536).toNat = n := by
  rw [codeOfBits]
  split <;> omega

/-- Codes that fit two bytes are read back, in order and to the end. -/
theorem readCodes?_flatMap {codes : List Int} (h : ∀ n ∈ codes, -32768 ≤ n ∧ n < 32768) :
    readCodes? (codes.flatMap leCode) = some codes := by
  induction codes with
  | nil => rfl
  | cons n codes ih =>
    have hn := h n List.mem_cons_self
    have hbits : (n % 65536).toNat < 65536 := by omega
    have hread := read16?_le16 hbits []
    have hcode : (UInt8.ofNat (n % 65536).toNat).toNat
        + 256 * (UInt8.ofNat ((n % 65536).toNat / 256)).toNat = (n % 65536).toNat :=
      congrArg Prod.fst (Option.some.inj hread)
    have hrest := ih fun m hm => h m (List.mem_cons_of_mem n hm)
    rw [List.flatMap_cons, leCode, le16]
    show (readCodes? (codes.flatMap leCode)).bind _ = _
    rw [hrest, Option.bind_some, hcode, codeOfBits_mod hn]

theorem length_flatMap_leCode (codes : List Int) :
    (codes.flatMap leCode).length = 2 * codes.length := by
  induction codes with
  | nil => rfl
  | cons n codes ih =>
    rw [List.flatMap_cons, List.length_append, ih, List.length_cons]
    show 2 + 2 * codes.length = _
    omega

/-! ### Chunks -/

theorem split?_append (front rest : List UInt8) :
    split? front.length (front ++ rest) = some (front, rest) := by
  rw [split?, if_pos (by simp), List.take_left, List.drop_left]

theorem length_tag (name : String) : (tag name).length = name.toList.length := List.length_map _

theorem length_chunk (name : String) (body : List UInt8) :
    (chunk name body).length = name.toList.length + 4 + body.length := by
  rw [chunk, List.length_append, List.length_append, length_tag, length_le32]

/-- A chunk of even size is read back. -/
theorem chunk?_chunk {name : String} (hname : name.toList.length = 4) {body : List UInt8}
    (hsize : body.length < 4294967296) (heven : body.length % 2 = 0) (rest : List UInt8) :
    chunk? (chunk name body ++ rest) = some (⟨tag name, body⟩, rest) := by
  have htag : split? 4 (tag name ++ (le32 body.length ++ (body ++ rest)))
      = some (tag name, le32 body.length ++ (body ++ rest)) := by
    have hfour : (tag name).length = 4 := (length_tag name).trans hname
    rw [← hfour]
    exact split?_append _ _
  have hbody := split?_append body rest
  rw [chunk, List.append_assoc, List.append_assoc, chunk?, htag]
  simp only [bind, Option.bind, read32?_le32 hsize, hbody, heven, if_true]

/-- A step reads one chunk. -/
theorem chunksFrom?_of_chunk? {c : Chunk} {s rest : List UInt8} (h : chunk? s = some (c, rest))
    (steps : Nat) : chunksFrom? (steps + 1) s = (chunksFrom? steps rest).map (c :: ·) := by
  cases s with
  | nil => simp [chunk?, split?] at h
  | cons x s =>
    rw [chunksFrom?, h]
    · simp only [Option.bind_eq_bind, Option.bind_some]
      cases chunksFrom? steps rest <;> rfl
    · simp

/-- Two chunks of even size are read back to the end. -/
theorem chunks?_append {name name' : String} (hname : name.toList.length = 4)
    (hname' : name'.toList.length = 4) {body body' : List UInt8}
    (hsize : body.length < 4294967296) (heven : body.length % 2 = 0)
    (hsize' : body'.length < 4294967296) (heven' : body'.length % 2 = 0) :
    chunks? (chunk name body ++ chunk name' body')
      = some [⟨tag name, body⟩, ⟨tag name', body'⟩] := by
  have hfirst := chunk?_chunk hname hsize heven (chunk name' body')
  have hsecond := chunk?_chunk hname' hsize' heven' []
  rw [List.append_nil] at hsecond
  -- each of the two chunks takes one of the steps that the length allows
  obtain ⟨steps, hsteps⟩ : ∃ steps, (chunk name body ++ chunk name' body').length
      = steps + 2 := by
    refine Nat.exists_eq_add_of_le' ?_
    rw [List.length_append, length_chunk, length_chunk]
    omega
  rw [chunks?, hsteps, chunksFrom?_of_chunk? hfirst, chunksFrom?_of_chunk? hsecond]
  cases steps <;> rfl

/-! ### The format chunk -/

theorem length_formatBody (channels sampleRate : Nat) :
    (formatBody channels sampleRate).length = if channels ≤ 2 then 16 else 40 := by
  rw [formatBody]
  split <;> rfl

/-- What both kinds of format chunk say is read back if the rest is an extension of its kind. -/
theorem format?_formatFields {kind channels sampleRate : Nat} (hkind : kind < 65536)
    (hpos : 1 ≤ channels) (hchannels : channels < 32768)
    (hrate : sampleRate * 2 * channels < 4294967296) {ext : List UInt8}
    (hext : extension? kind ext = some ()) :
    format? (formatFields kind channels sampleRate ++ ext) = some (channels, sampleRate, 16) := by
  have hle : sampleRate ≤ sampleRate * 2 * channels :=
    Nat.le_trans (Nat.le_mul_of_pos_right _ (by decide)) (Nat.le_mul_of_pos_right _ hpos)
  have hframe : 2 * channels = channels * (16 / 8)
      ∧ sampleRate * 2 * channels = sampleRate * (2 * channels) :=
    ⟨Nat.mul_comm _ _, Nat.mul_assoc _ _ _⟩
  rw [formatFields, sampleBytes]
  simp only [List.append_assoc]
  rw [format?, read16?_le16 hkind]
  simp only [bind, Option.bind, read16?_le16 (Nat.lt_trans hchannels (by decide)),
    read32?_le32 (Nat.lt_of_le_of_lt hle hrate), read32?_le32 hrate,
    read16?_le16 (show 2 * channels < 65536 by omega), read16?_le16 (show 8 * 2 < 65536 by decide),
    hext, if_pos hframe]

/-- The extension names plain samples. -/
theorem extension?_pcm {mask : Nat} (hmask : mask < 4294967296) :
    extension? 0xFFFE (le16 22 ++ (le16 (8 * sampleBytes) ++ (le32 mask ++ pcmGuid)))
      = some () := by
  have hnot : ¬(0xFFFE = 1) := by decide
  rw [extension?, if_neg hnot, if_pos rfl, read16?_le16 (by decide)]
  simp only [bind, Option.bind, read16?_le16 (show 8 * sampleBytes < 65536 by decide),
    read32?_le32 hmask]
  rfl

/-- **Format chunks.** Either kind of format chunk is read back. -/
theorem format?_formatBody {channels sampleRate : Nat} (hpos : 1 ≤ channels)
    (hchannels : channels < 32768) (hrate : sampleRate * 2 * channels < 4294967296) :
    format? (formatBody channels sampleRate) = some (channels, sampleRate, 16) := by
  rw [formatBody]
  split
  · have h : format? (formatFields 1 channels sampleRate ++ []) = _ :=
      format?_formatFields (by decide) hpos hchannels hrate rfl
    rwa [List.append_nil] at h
  · have hmask : channelMask channels < 4294967296 := by
      have hpow : Nat.pow 2 (min channels 18) ≤ Nat.pow 2 18 :=
        Nat.pow_le_pow_right (by decide) (Nat.min_le_right _ _)
      have hbound : Nat.pow 2 18 = 262144 := rfl
      rw [channelMask]
      omega
    have h : format? (formatFields 0xFFFE channels sampleRate ++ _) = _ :=
      format?_formatFields (by decide) hpos hchannels hrate (extension?_pcm hmask)
    simpa only [List.append_assoc] using h

/-! ### Files -/

/-- The bytes of a file in front of its samples. -/
def headerSize (channels : Nat) : Nat := if channels ≤ 2 then 44 else 68

/-- A file is its header and two bytes for each code. -/
theorem length_file (channels sampleRate : Nat) (codes : List Int) :
    (file channels sampleRate codes).length = headerSize channels + 2 * codes.length := by
  have htag : (tag "WAVE").length = 4 := rfl
  have hname : "RIFF".toList.length = 4 ∧ "fmt ".toList.length = 4 ∧ "data".toList.length = 4 := by
    decide
  rw [file, length_chunk, List.length_append, List.length_append, length_chunk, length_chunk,
    length_formatBody, length_flatMap_leCode, htag, headerSize]
  split <;> omega

/-- A file is one chunk. -/
theorem chunk?_file (channels sampleRate : Nat) {codes : List Int}
    (hsize : 68 + 2 * codes.length < 4294967296) :
    chunk? (file channels sampleRate codes) = some (⟨tag "RIFF", tag "WAVE"
      ++ (chunk "fmt " (formatBody channels sampleRate)
        ++ chunk "data" (codes.flatMap leCode))⟩, []) := by
  have hname : "RIFF".toList.length = 4 := rfl
  -- The size of the one chunk of a file is that of the file without name and size.
  have hlength := length_file channels sampleRate codes
  rw [file, length_chunk, hname, headerSize] at hlength
  have hriff : chunk? (chunk "RIFF" (tag "WAVE" ++ chunk "fmt " (formatBody channels sampleRate)
      ++ chunk "data" (codes.flatMap leCode)) ++ []) = some (⟨tag "RIFF", _⟩, []) :=
    chunk?_chunk hname (by split at hlength <;> omega) (by split at hlength <;> omega) []
  rw [List.append_nil, List.append_assoc] at hriff
  rw [file, List.append_assoc, hriff]

/-- There are two chunks in it. -/
theorem chunks?_file (channels sampleRate : Nat) {codes : List Int}
    (hsize : 68 + 2 * codes.length < 4294967296) :
    chunks? (chunk "fmt " (formatBody channels sampleRate) ++ chunk "data" (codes.flatMap leCode))
      = some [⟨tag "fmt ", formatBody channels sampleRate⟩,
        ⟨tag "data", codes.flatMap leCode⟩] := by
  have hfmt := length_formatBody channels sampleRate
  have hdata := length_flatMap_leCode codes
  exact chunks?_append rfl rfl (by split at hfmt <;> omega) (by split at hfmt <;> omega)
    (by omega) (by omega)

/-- **Files.** What was written is read back, and nothing is left over. -/
theorem read?_file {channels sampleRate : Nat} {codes : List Int} (hpos : 1 ≤ channels)
    (hchannels : channels < 32768) (hrate : sampleRate * 2 * channels < 4294967296)
    (hsize : 68 + 2 * codes.length < 4294967296)
    (hcodes : ∀ n ∈ codes, -32768 ≤ n ∧ n < 32768) :
    read? (file channels sampleRate codes) = some ⟨channels, sampleRate, 16, codes⟩ := by
  have hform : split? 4 (tag "WAVE" ++ (chunk "fmt " (formatBody channels sampleRate)
      ++ chunk "data" (codes.flatMap leCode))) = some (tag "WAVE", _) :=
    split?_append (tag "WAVE") _
  rw [read?, chunk?_file channels sampleRate hsize]
  simp only [bind, Option.bind, hform, chunks?_file channels sampleRate hsize, beq_self_eq_true,
    and_self, if_true, format?_formatBody hpos hchannels hrate, readCodes?_flatMap hcodes]

/-! ### Sizes -/

/-- A field of two bytes is read behind a front of the right length. -/
theorem field16?_append {n : Nat} (hn : n < 65536) {front : List UInt8} {offset : Nat}
    (hf : front.length = offset) (rest : List UInt8) :
    field16? (front ++ (le16 n ++ rest)) offset = some n := by
  rw [field16?, ← hf, List.drop_left, read16?_le16 hn, Option.map_some]

theorem field32?_append {n : Nat} (hn : n < 4294967296) {front : List UInt8} {offset : Nat}
    (hf : front.length = offset) (rest : List UInt8) :
    field32? (front ++ (le32 n ++ rest)) offset = some n := by
  rw [field32?, ← hf, List.drop_left, read32?_le32 hn, Option.map_some]

/-- The common fields of a format chunk come first. -/
theorem exists_formatBody_eq (channels sampleRate : Nat) :
    ∃ kind ext, formatBody channels sampleRate = formatFields kind channels sampleRate ++ ext := by
  rw [formatBody]
  split
  · exact ⟨1, [], (List.append_nil _).symm⟩
  · exact ⟨0xFFFE, le16 22 ++ (le16 (8 * sampleBytes) ++ (le32 (channelMask channels) ++ pcmGuid)),
      by simp only [List.append_assoc]⟩

theorem chunk_eq (name : String) (body : List UInt8) :
    chunk name body = tag name ++ (le32 body.length ++ body) := List.append_assoc _ _ _

/-- The size of a file follows four bytes and comes in front of the body of its one chunk. -/
theorem exists_file_eq_size (channels sampleRate : Nat) (codes : List Int) :
    ∃ front body, front.length = 4
      ∧ file channels sampleRate codes = front ++ (le32 body.length ++ body) :=
  ⟨tag "RIFF", _, rfl, chunk_eq _ _⟩

/-- The sizes of a second and of a frame follow 28 bytes, in either kind of file. -/
theorem exists_file_eq_rates (channels sampleRate : Nat) (codes : List Int) :
    ∃ front rest, front.length = 28 ∧ file channels sampleRate codes
      = front ++ (le32 (sampleRate * sampleBytes * channels)
        ++ (le16 (sampleBytes * channels) ++ rest)) := by
  obtain ⟨kind, ext, hformat⟩ := exists_formatBody_eq channels sampleRate
  rw [file, chunk_eq "RIFF", chunk_eq "fmt ", hformat, formatFields]
  generalize List.length _ = fileSize
  generalize List.length _ = formatSize
  refine ⟨tag "RIFF" ++ (le32 fileSize ++ (tag "WAVE" ++ (tag "fmt " ++ (le32 formatSize
    ++ (le16 kind ++ (le16 channels ++ le32 sampleRate)))))),
    le16 (8 * sampleBytes) ++ (ext ++ chunk "data" (codes.flatMap leCode)), rfl, ?_⟩
  simp only [List.append_assoc]

/-- The size of the samples comes right in front of them. -/
theorem exists_file_eq_data (channels sampleRate : Nat) (codes : List Int) :
    ∃ front, front.length = headerSize channels - 4 ∧ file channels sampleRate codes
      = front ++ (le32 (2 * codes.length) ++ codes.flatMap leCode) := by
  have hformat := length_formatBody channels sampleRate
  have hfmt : "fmt ".toList.length = 4 := rfl
  have htags : (tag "RIFF").length = 4 ∧ (tag "WAVE").length = 4 ∧ (tag "data").length = 4 := by
    decide
  rw [file, chunk_eq "RIFF", chunk_eq "data", length_flatMap_leCode]
  generalize List.length _ = fileSize
  refine ⟨tag "RIFF" ++ (le32 fileSize ++ (tag "WAVE"
    ++ (chunk "fmt " (formatBody channels sampleRate) ++ tag "data"))), ?_, ?_⟩
  · simp only [List.length_append, length_le32, length_chunk, htags, hfmt, hformat]
    rw [headerSize]
    split <;> rfl
  · simp only [List.append_assoc]

/-- The samples fill the rest of a file. -/
theorem readCodes?_drop_file (channels sampleRate : Nat) (samples : List Single) :
    readCodes? ((file channels sampleRate (samples.map pcm)).drop (headerSize channels))
      = some (samples.map pcm) := by
  obtain ⟨front, hfront, hfile⟩ := exists_file_eq_data channels sampleRate (samples.map pcm)
  have hlength :
      (front ++ le32 (2 * (samples.map pcm).length)).length = headerSize channels := by
    rw [List.length_append, hfront, length_le32, headerSize]
    split <;> rfl
  rw [hfile, ← List.append_assoc, ← hlength, List.drop_left]
  exact readCodes?_flatMap (map_pcm_bounded samples)

/-- The **sizes** that the header of a file states agree with the file. -/
structure SizesAgree (c : Clip) (s : List UInt8) : Prop where
  length_eq : s.length = headerSize c.channels + c.frames * (2 * c.channels)
  riff_size : field32? s 4 = some (s.length - 8)
  byte_rate : field32? s 28 = some (c.sampleRate * (2 * c.channels))
  block_align : field16? s 32 = some (2 * c.channels)
  data_size : field32? s (headerSize c.channels - 4) = some (s.length - headerSize c.channels)

/-- A clip is **bounded** when what is stated of it fits the fields of a header. -/
structure Bounded (c : Clip) : Prop where
  rate : c.sampleRate * 2 * c.channels < 4294967296
  channels : c.channels < 32768
  samples : 68 + 2 * c.samples.length < 4294967296

/-- Two bytes are written for each channel of each frame. -/
theorem frames_mul {c : Clip} (hpos : 1 ≤ c.channels) (hdvd : c.channels ∣ c.samples.length) :
    c.frames * (2 * c.channels) = 2 * c.samples.length := by
  have hexact := Nat.div_mul_cancel hdvd
  rw [Clip.frames, Nat.max_eq_left hpos, Nat.mul_left_comm, hexact]

/-- The sizes that a file tells of itself agree with its clip. -/
theorem sizesAgree_file {c : Clip} (h : Bounded c) (hpos : 1 ≤ c.channels)
    (hdvd : c.channels ∣ c.samples.length) :
    SizesAgree c (file c.channels c.sampleRate (c.samples.map pcm)) := by
  obtain ⟨hrate, hchannels, hsamples⟩ := h
  have hlength := length_file c.channels c.sampleRate (c.samples.map pcm)
  have hheader : headerSize c.channels ≤ 68 := by
    rw [headerSize]
    split <;> decide
  rw [List.length_map] at hlength
  refine ⟨by rw [hlength, frames_mul hpos hdvd], ?_, ?_, ?_, ?_⟩
  · obtain ⟨front, body, hfront, hfile⟩ :=
      exists_file_eq_size c.channels c.sampleRate (c.samples.map pcm)
    have hsplit := congrArg List.length hfile
    rw [List.length_append, List.length_append, length_le32, hfront] at hsplit
    have hsize : (file c.channels c.sampleRate (c.samples.map pcm)).length - 8 = body.length := by
      omega
    rw [hsize, hfile]
    exact field32?_append (by omega) hfront body
  · obtain ⟨front, rest, hfront, hfile⟩ :=
      exists_file_eq_rates c.channels c.sampleRate (c.samples.map pcm)
    rw [hfile, ← Nat.mul_assoc]
    exact field32?_append hrate hfront _
  · obtain ⟨front, rest, hfront, hfile⟩ :=
      exists_file_eq_rates c.channels c.sampleRate (c.samples.map pcm)
    rw [hfile, ← List.append_assoc]
    refine field16?_append (show 2 * c.channels < 65536 by omega) ?_ rest
    rw [List.length_append, hfront, length_le32]
  · obtain ⟨front, hfront, hfile⟩ :=
      exists_file_eq_data c.channels c.sampleRate (c.samples.map pcm)
    rw [hlength, Nat.add_sub_cancel_left, hfile, List.length_map]
    exact field32?_append (by omega) hfront _

/-! ### Clips -/

/-- A clip is refused if it breaks one of three conditions, and only as invalid input. -/
theorem refusal?_cases (c : Clip) :
    (refusal? c = none
      ∧ 1 ≤ c.sampleRate ∧ 1 ≤ c.channels ∧ c.channels ∣ c.samples.length)
    ∨ (∃ detail, refusal? c = some (.invalidInput detail))
      ∧ ¬(1 ≤ c.sampleRate ∧ 1 ≤ c.channels ∧ c.channels ∣ c.samples.length) := by
  rw [refusal?]
  split
  case isTrue hrate => exact .inr ⟨⟨_, rfl⟩, by omega⟩
  case isFalse hrate =>
    split
    case isTrue hchannels => exact .inr ⟨⟨_, rfl⟩, by omega⟩
    case isFalse hchannels =>
      split
      case isTrue hrest =>
        exact .inr ⟨⟨_, rfl⟩, fun ⟨_, _, hdvd⟩ => hrest (Nat.mod_eq_zero_of_dvd hdvd)⟩
      case isFalse hrest =>
        refine .inl ⟨rfl, Nat.pos_of_ne_zero hrate, Nat.pos_of_ne_zero hchannels, ?_⟩
        exact Nat.dvd_of_mod_eq_zero (Decidable.not_not.mp hrest)

/-- What is written is the file of the codes. -/
theorem encode_eq_ok {c : Clip} {s : List UInt8} (h : encode c = .ok s) :
    1 ≤ c.sampleRate ∧ 1 ≤ c.channels ∧ c.channels ∣ c.samples.length
      ∧ s = file c.channels c.sampleRate (c.samples.map pcm) := by
  rw [encode] at h
  obtain ⟨hnone, hrate, hpos, hdvd⟩ | ⟨⟨detail, hsome⟩, -⟩ := refusal?_cases c
  · rw [hnone] at h
    exact ⟨hrate, hpos, hdvd, (Except.ok.inj h).symm⟩
  · rw [hsome] at h
    exact nomatch h

/-- The bytes that a bounded clip is written as say everything of it but how its samples were
rounded. -/
theorem read?_of_encode {c : Clip} (hc : Bounded c) {s : List UInt8} (h : encode c = .ok s) :
    read? s = some ⟨c.channels, c.sampleRate, 16, c.samples.map pcm⟩ := by
  obtain ⟨hrate, hchannels, hsamples⟩ := hc
  obtain ⟨-, hpos, -, rfl⟩ := encode_eq_ok h
  have hsize : 68 + 2 * (c.samples.map pcm).length < 4294967296 := by rwa [List.length_map]
  exact read?_file hpos hchannels hrate hsize (map_pcm_bounded c.samples)

/-- The **encoding is exact** for a clip: it is written if and only if its numbers allow it, what
is written is read back with sizes that agree, and no other audio is written as the same bytes. -/
structure ExactEncoding (c : Clip) : Prop where
  accepted_iff : (∃ s, encode c = .ok s)
    ↔ 1 ≤ c.sampleRate ∧ 1 ≤ c.channels ∧ c.channels ∣ c.samples.length
  refused : ∀ e, encode c = .error e → ∃ detail, e = .invalidInput detail
  read_back : ∀ s, encode c = .ok s →
    read? s = some ⟨c.channels, c.sampleRate, 16, c.samples.map pcm⟩
  sizes : ∀ s, encode c = .ok s → SizesAgree c s
  distinct : ∀ s, encode c = .ok s → ∀ d, Bounded d → encode d = .ok s →
    c.channels = d.channels ∧ c.sampleRate = d.sampleRate ∧ c.samples.map pcm = d.samples.map pcm

/-- **Exact encoding** holds for every clip within the bounds of a header. -/
theorem encode_exact (c : Clip) (hc : Bounded c) : ExactEncoding c where
  accepted_iff := by
    constructor
    · rintro ⟨s, h⟩
      obtain ⟨hrate, hpos, hdvd, -⟩ := encode_eq_ok h
      exact ⟨hrate, hpos, hdvd⟩
    · intro hvalid
      obtain ⟨hnone, -⟩ | ⟨-, hinvalid⟩ := refusal?_cases c
      · exact ⟨_, by rw [encode, hnone]⟩
      · exact absurd hvalid hinvalid
  refused := by
    intro e h
    rw [encode] at h
    obtain ⟨hnone, -⟩ | ⟨⟨detail, hsome⟩, -⟩ := refusal?_cases c
    · rw [hnone] at h
      exact nomatch h
    · rw [hsome] at h
      exact ⟨detail, (Except.error.inj h).symm⟩
  read_back := fun s h => read?_of_encode hc h
  sizes := by
    intro s h
    obtain ⟨-, hpos, hdvd, rfl⟩ := encode_eq_ok h
    exact sizesAgree_file hc hpos hdvd
  distinct := by
    intro s h d hd h'
    have haudio := (read?_of_encode hc h).symm.trans (read?_of_encode hd h')
    injection haudio with haudio
    injection haudio with hchannels hrate _ hcodes
    exact ⟨hchannels, hrate, hcodes⟩

/-- One frame of three channels: full scale, minus a half, and no number. It takes the extensible
format chunk. -/
theorem encode_exact_three_channels :
    let c : Clip := ⟨[.ofBits .single 0x3F800000, .ofBits .single 0xBF000000,
      .ofBits .single 0x7FC00000], 8000, 3⟩
    Bounded c ∧ ∃ s, encode c = .ok s ∧ s.length = 74
      ∧ read? s = some ⟨3, 8000, 16, [32767, -16384, 0]⟩ := by
  intro c
  have hbounded : Bounded c := ⟨by decide, by decide, by decide⟩
  have hexact := encode_exact c hbounded
  have hcodes : c.samples.map pcm = [32767, -16384, 0] := by decide +kernel
  obtain ⟨s, hs⟩ := hexact.accepted_iff.mpr ⟨by decide, by decide, by decide⟩
  exact ⟨hbounded, s, hs, (hexact.sizes s hs).length_eq.trans (by decide),
    hcodes ▸ hexact.read_back s hs⟩

end SpeechService.Wav
