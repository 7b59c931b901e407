import SpeechService.Http.Exchange
import SpeechService.Rehearsal.Backend
import SpeechService.Proofs.Wav.RoundTrip

/-!
# Headers of a response

A response with speech tells its length, its sample rate and its duration twice: in its own headers,
which come from the clip, and in the header of the file that is its body, which comes from the
encoder. `Wav.header?` reads the second without knowing how files are written, and the first agrees
with it for every clip whose sizes fit a header (`Session.headers_agree`), whatever the engine and
the processor are: for any rate and up to 32767 channels. Of a frame with more channels than that,
16 bits do not count the bytes, and the two do not agree any more
(`Session.not_headersAgree_of_wide_frames`).

The bytes of a file are twice its samples, and a frame has two bytes for each channel. So the frames
can be counted from the file alone (`Wav.header?_of_encode`), and their number is so small that
their length in milliseconds is computed in 64 bits.
-/

namespace SpeechService

/-! ### The header of a file -/

namespace Wav

/-- The rate in either kind of format chunk. -/
theorem field32?_formatBody {sampleRate : Nat} (h : sampleRate < 4294967296) (channels : Nat) :
    field32? (formatBody channels sampleRate) 4 = some sampleRate := by
  obtain ⟨kind, ext, hformat⟩ := exists_formatBody_eq channels sampleRate
  have hfront : (le16 kind ++ le16 channels).length = 4 := rfl
  rw [hformat, formatFields]
  simp only [List.append_assoc]
  rw [← List.append_assoc (le16 kind)]
  exact field32?_append h hfront _

/-- The bytes of a frame in either kind of format chunk, as far as 16 bits count them. -/
theorem field16?_formatBody (channels sampleRate : Nat) :
    field16? (formatBody channels sampleRate) 12 = some (2 * channels % 65536) := by
  obtain ⟨kind, ext, hformat⟩ := exists_formatBody_eq channels sampleRate
  have hfront : (le16 kind ++ le16 channels ++ le32 sampleRate
      ++ le32 (sampleRate * sampleBytes * channels)).length = 12 := rfl
  have hlt : 2 * channels % 65536 < 65536 := Nat.mod_lt _ (by decide)
  rw [hformat, formatFields, List.append_assoc, List.append_assoc, ← le16_mod (sampleBytes * _)]
  exact field16?_append hlt hfront _

/-- What the header of a file says. -/
theorem header?_file (channels : Nat) {sampleRate : Nat} {codes : List Int}
    (hrate : sampleRate < 4294967296) (hsize : 68 + 2 * codes.length < 4294967296) :
    header? (file channels sampleRate codes)
      = some ⟨sampleRate, 2 * channels % 65536, 2 * codes.length⟩ := by
  have hform : split? 4 (tag "WAVE" ++ (chunk "fmt " (formatBody channels sampleRate)
      ++ chunk "data" (codes.flatMap leCode))) = some (tag "WAVE", _) :=
    split?_append (tag "WAVE") _
  have hname : (tag "fmt " == tag "data") = false := by decide
  rw [header?, chunk?_file channels sampleRate hsize]
  simp only [bind, Option.bind, hform, chunks?_file channels sampleRate hsize, List.find?, hname,
    beq_self_eq_true, field32?_formatBody hrate channels, field16?_formatBody channels sampleRate,
    length_flatMap_leCode, and_self, if_true]

/-- **From the file alone.** The header of a file tells the rate and the frames of the clip. -/
theorem header?_of_encode {c : Clip} (hc : Bounded c) {s : List UInt8} (h : encode c = .ok s) :
    ∃ header, header? s = some header ∧ header.sampleRate = c.sampleRate
      ∧ header.frames = c.frames := by
  obtain ⟨hrate, hchannels, hsamples⟩ := hc
  obtain ⟨-, hpos, -, rfl⟩ := encode_eq_ok h
  -- The rate fits four bytes since the bytes of a second do.
  have hle : c.sampleRate ≤ c.sampleRate * 2 * c.channels :=
    Nat.le_trans (Nat.le_mul_of_pos_right _ (by decide)) (Nat.le_mul_of_pos_right _ hpos)
  have hsize : 68 + 2 * (c.samples.map pcm).length < 4294967296 := by rwa [List.length_map]
  have hheader := header?_file c.channels (Nat.lt_of_le_of_lt hle hrate) hsize
  have hframe : 2 * c.channels < 65536 := by omega
  rw [Nat.mod_eq_of_lt hframe] at hheader
  refine ⟨_, hheader, rfl, ?_⟩
  rw [Header.frames, Clip.frames, Nat.max_eq_left hpos, List.length_map]
  exact Nat.mul_div_mul_left _ _ (by decide)

/-- The frames of a bounded clip are so few that a thousand times their number has 64 bits. -/
theorem Bounded.frames_lt {c : Clip} (hc : Bounded c) : c.frames * 1000 < 18446744073709551616 := by
  have hframes : c.frames ≤ c.samples.length := Nat.div_le_self _ _
  have hsamples := hc.samples
  omega

end Wav

/-! ### The headers of a response -/

/-- The value of a header. -/
def HttpResponse.header? (x : HttpResponse) (name : String) : Option String := x.headers.lookup name

/-- The request that is to be spoken, if one is. -/
def HttpRequest.Decision.request? : HttpRequest.Decision → Option Request
  | .speak request => some request
  | _ => none

/-- The clip that a task ended with, if it did. -/
def Ending.clip? {B : Backend} : Ending B → Option Clip
  | .spoken (.ok clip) => some clip
  | _ => none

namespace Http

variable {B : Backend}

/-- The headers of a response with a clip **agree** with the header of the file in its body. -/
structure HeadersAgree (clip : Clip) (x : HttpResponse) (header : Wav.Header) : Prop where
  header_eq : Wav.header? x.body = some header
  length : x.header? "content-length" = some (Text.ofNat x.body.length)
  rate : x.header? "x-tts-sample-rate" = some (Text.ofNat header.sampleRate)
  duration : x.header? "x-tts-duration-ms" = some (Text.ofNat header.durationMs)
  /-- The frames of the clip, from which the duration is computed, are those of the file. -/
  frames_eq : header.frames = clip.frames
  /-- Nothing overflows where the duration is computed in 64 bits. -/
  no_overflow : clip.frames * 1000 < 18446744073709551616

theorem status_failed_ne (c : SynthesisError) : (failed (.ofSynthesis c) true).status ≠ 200 := by
  cases c <;> simp [failed, ApiError.ofSynthesis, ApiError.status]

/-- Only speech that was encoded is answered with the status 200. -/
theorem spoken_of_status {encoder : Encoder} {x : Ending B}
    (h : (ofEnding encoder x).status = 200) :
    ∃ clip f, x.clip? = some clip ∧ encoder.file clip = .ok f ∧ ofEnding encoder x = speech f := by
  cases x with
  | loaded result => simp [ofEnding, bare] at h
  | panicked message => simp [ofEnding, failed, ApiError.status] at h
  | spoken result =>
    cases result with
    | error c => exact absurd h (status_failed_ne c)
    | ok clip =>
      cases hfile : encoder.file clip with
      | error c =>
        rw [ofEnding, hfile] at h
        exact absurd h (status_failed_ne c)
      | ok f => exact ⟨clip, f, rfl, hfile, by rw [ofEnding, hfile]⟩

/-- What is told about a file comes from the clip. -/
theorem file_eq_ok {clip : Clip} {f : SpokenFile} (h : Wav.encoder.file clip = .ok f) :
    ∃ content, Wav.encode clip = .ok content
      ∧ f = ⟨content, Wav.contentType, clip.sampleRate, clip.durationMs⟩ := by
  rw [Encoder.file] at h
  cases hencode : Wav.encoder.encode clip with
  | error e =>
    rw [hencode] at h
    cases h
  | ok content =>
    rw [hencode] at h
    exact ⟨content, hencode, (Except.ok.inj h).symm⟩

/-- A clip that is encoded has a file. -/
theorem file_of_encode {clip : Clip} {content : List UInt8} (h : Wav.encode clip = .ok content) :
    Wav.encoder.file clip
      = .ok ⟨content, Wav.contentType, clip.sampleRate, clip.durationMs⟩ := by
  have hencode : Wav.encoder.encode clip = .ok content := h
  rw [Encoder.file, hencode]
  rfl

/-- Whatever a clip is, the headers of the response with its file agree. -/
theorem headersAgree_speech {clip : Clip} (hc : Wav.Bounded clip) {f : SpokenFile}
    (hf : Wav.encoder.file clip = .ok f) : ∃ header, HeadersAgree clip (speech f) header := by
  obtain ⟨content, hencode, rfl⟩ := file_eq_ok hf
  obtain ⟨header, hheader, hrate, hframes⟩ := Wav.header?_of_encode hc hencode
  refine ⟨header, hheader, rfl, ?_, ?_, hframes, hc.frames_lt⟩
  · rw [hrate]
    rfl
  · rw [Wav.Header.durationMs, hframes, hrate, Nat.mul_comm]
    rfl

end Http

/-! ### Requests to speak -/

namespace HttpRequest

open Http

variable (r : HttpRequest) (bodyLimit : Nat)

/-- A request for speech is not answered at once with the status 200. -/
theorem speak_or_refused (hpath : r.path = "/v1/tts") :
    (∃ request, r.decide bodyLimit = .speak request)
      ∨ ∃ x, r.decide bodyLimit = .reply x ∧ x.status ≠ 200 := by
  have hother : r.path ≠ "/healthz" := by
    rw [hpath]
    decide
  rw [decide, if_neg hother, if_pos hpath]
  split
  · rw [decideSpeech]
    split
    · exact .inr ⟨_, rfl, by decide⟩
    · split
      · exact .inr ⟨_, rfl, by decide⟩
      · cases readRequest r.body with
        | ok request => exact .inl ⟨request, rfl⟩
        | error problem => exact .inr ⟨_, rfl, by simp [failed, ApiError.status]⟩
  · exact .inr ⟨_, rfl, by decide⟩

end HttpRequest

namespace Session

open Http

variable {B : Backend} (S : Session B)

/-- What is answered with the status 200 is the end of a task. -/
theorem serve_of_status {encoder : Encoder} {request : Request}
    (h : (S.speak encoder request).2.status = 200) :
    ∃ after x, S.serve [.speak request] none = (after, [some x])
      ∧ S.speak encoder request = (after, ofEnding encoder x) := by
  rw [speak] at h ⊢
  split at h
  · next after x hserve => exact ⟨after, x, hserve, rfl⟩
  · simp [bare] at h

/-- **Headers agree.** Whatever the backend is and whatever has happened in a session: a request for
speech that is answered with the status 200 is answered with a clip, and if the sizes of the clip
fit a header of a file, the headers of the response agree with the body. To fit, a frame must not
have more than 32767 channels, since its bytes are counted in 16 bits. -/
theorem headers_agree (bodyLimit : Nat) {r : HttpRequest} (hpath : r.path = "/v1/tts")
    (hok : (S.exchange Wav.encoder bodyLimit r).2.status = 200) :
    ∃ request after x clip, (r.decide bodyLimit).request? = some request
      ∧ S.serve [.speak request] none = (after, [some x]) ∧ x.clip? = some clip
      ∧ (Wav.Bounded clip →
        ∃ header, HeadersAgree clip (S.exchange Wav.encoder bodyLimit r).2 header) := by
  rw [exchange] at hok ⊢
  -- What is answered before a task begins is a refusal, and so is all that is no clip in the end.
  obtain ⟨request, hdecide⟩ | ⟨x, hdecide, hstatus⟩ := r.speak_or_refused bodyLimit hpath
  · rw [hdecide] at hok ⊢
    obtain ⟨after, x, hserve, hspeak⟩ := S.serve_of_status hok
    dsimp only at hok ⊢
    rw [hspeak] at hok ⊢
    obtain ⟨clip, f, hclip, hfile, hspeech⟩ := spoken_of_status hok
    refine ⟨request, after, x, clip, rfl, hserve, hclip, fun hc => ?_⟩
    rw [hspeech]
    exact headersAgree_speech hc hfile
  · rw [hdecide] at hok
    exact absurd hok hstatus

/-- Three frames of two channels, at a thousand frames in a second. -/
theorem headers_agree_two_channels :
    let quiet : Single := .ofNat .single 0
    let speech : RawSpeech := .tensor ⟨List.replicate 6 quiet, [3, 2], .cpu, .f32⟩
    let B := Rehearsal.Script.backend { samplingRate := some 1000 }
    let S : Session B := { service := { world := { performances := [some (.speech [speech])] } } }
    let r : HttpRequest :=
      { method := "POST", uri := "/v1/tts", headers := [("content-type", "application/json")]
        body := jsonBytes (.object [("text", .string "hi")]) }
    let clip : Clip := ⟨List.replicate 6 quiet, 1000, 2⟩
    Wav.Bounded clip ∧ HeadersAgree clip (S.exchange Wav.encoder 100 r).2 ⟨1000, 4, 12⟩ := by
  intro quiet speech B S r clip
  have hpath : r.path = "/v1/tts" := by decide +kernel
  have hok : (S.exchange Wav.encoder 100 r).2.status = 200 := by decide +kernel
  obtain ⟨request, after, x, clip', hrequest, hserve, hclip', hagree⟩ :=
    S.headers_agree 100 hpath hok
  have hdecide : (r.decide 100).request? = some { text := "hi" } := by decide +kernel
  obtain rfl : request = { text := "hi" } := Option.some.inj (hrequest.symm.trans hdecide)
  have hclip : (S.serve [.speak { text := "hi" }] none).2.filterMap (·.bind Ending.clip?)
      = [clip] := by decide +kernel
  have hlast : [clip'] = [clip] := by simpa [hserve, hclip'] using hclip
  obtain rfl : clip' = clip := List.singleton_inj.mp hlast
  have hbounded : Wav.Bounded clip := ⟨by decide, by decide, by decide⟩
  obtain ⟨header, hheader⟩ := hagree hbounded
  have hread : Wav.header? (S.exchange Wav.encoder 100 r).2.body = some ⟨1000, 4, 12⟩ := by
    decide +kernel
  obtain rfl : header = ⟨1000, 4, 12⟩ := Option.some.inj (hheader.header_eq.symm.trans hread)
  exact ⟨hbounded, hheader⟩

/-- Of a frame with 32769 channels two bytes are counted. Two such frames last two milliseconds at a
thousand frames in a second, but more than a minute by the header of the file. -/
theorem not_headersAgree_of_wide_frames :
    let clip : Clip := ⟨List.replicate 65538 (.ofNat .single 0), 1000, 32769⟩
    ∃ f header, Wav.encoder.file clip = .ok f ∧ Wav.header? (speech f).body = some header ∧
      (speech f).header? "x-tts-duration-ms" = some "2" ∧ header.durationMs = 65538 := by
  intro clip
  have hlength : clip.samples.length = 65538 := List.length_replicate
  have hcodes : (clip.samples.map Wav.pcm).length = 65538 := by rw [List.length_map, hlength]
  have hencode : Wav.encode clip
      = .ok (Wav.file clip.channels clip.sampleRate (clip.samples.map Wav.pcm)) := by
    obtain ⟨hnone, -⟩ | ⟨-, hinvalid⟩ := Wav.refusal?_cases clip
    · rw [Wav.encode, hnone]
    · exact absurd ⟨by decide, by decide, by rw [hlength]; decide⟩ hinvalid
  have hduration : clip.durationMs = 2 := by
    rw [Clip.durationMs, Clip.frames, hlength]
    show 65538 / max 32769 1 * 1000 / 1000 = 2
    decide
  have hsize : 68 + 2 * (clip.samples.map Wav.pcm).length < 4294967296 := by
    rw [hcodes]
    decide
  have hheader := Wav.header?_file clip.channels (by decide : clip.sampleRate < 4294967296) hsize
  rw [hcodes] at hheader
  refine ⟨_, _, file_of_encode hencode, hheader, ?_, ?_⟩
  · show some (Text.ofNat clip.durationMs) = some "2"
    rw [hduration]
    decide
  · show 1000 * (2 * 65538 / (2 * 32769 % 65536)) / 1000 = 65538
    decide

end Session

end SpeechService
