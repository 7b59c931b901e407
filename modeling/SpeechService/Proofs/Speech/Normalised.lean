import SpeechService.Proofs.Tensor.Representation
import SpeechService.Proofs.Wav.RoundTrip
import SpeechService.Speech

/-!
# From raw speech to a clip

Raw speech becomes a clip that keeps every sample in its place. The dimensions of one do not count,
and they do not change the product either (`prod_dimensions`), so that the channels of the clip
divide the number of its samples.

Raw speech is **normalised well** when it becomes a clip that can be encoded, and is refused only
for its size, for a third dimension that counts, or for a last dimension that is no number of
channels. `RawSpeech.normalised_of_made` says exactly when this is so: always, but for two kinds of
speech that becomes a clip all the same. Of two dimensions that count, the last one may be zero;
then the clip has no channels, and the encoder refuses it. Or the product of the shape is another
number than that of the samples, which passes unnoticed where the two differ by a multiple of `2 ^
64`; then the channels of the clip need not divide its samples.
-/

namespace SpeechService

namespace RawSpeech

/-- The numbers of raw speech in 32 bits. -/
def numbers : RawSpeech → List Single
  | .tensor t => t.data
  | .array values _ => values.map (Binary.convert .single)

/-- The shape of raw speech. -/
def shape : RawSpeech → List Nat
  | .tensor t => t.shape
  | .array _ shape => shape

/-- The **dimensions** that count: those that are not one. -/
def dimensions (raw : RawSpeech) : List Nat := raw.shape.filter (· != 1)

/-- Raw speech as it can come to be: any array, but only a tensor that was made. -/
inductive Made : RawSpeech → Prop
  | tensor {t : Tensor} (h : t.Made) : Made (.tensor t)
  | array (values : List Double) (shape : List Nat) : Made (.array values shape)

/-- The shape has as many places as there are numbers. -/
def Fits (raw : RawSpeech) : Prop := raw.shape.prod = raw.numbers.length

/-- The product of the shape wraps around to the number of the numbers, though it is another one. -/
def WrapsAround (raw : RawSpeech) : Prop :=
  raw.shape.prod ≡ raw.numbers.length [MOD 2 ^ 64] ∧ ¬raw.Fits

/-- Two dimensions count, and the second one leaves no channels. -/
def LacksChannels (raw : RawSpeech) : Prop := ∃ frames, raw.dimensions = [frames, 0]

variable {raw : RawSpeech} {declared : Option Nat}

/-- Raw speech has the **size** of its shape, as far as words of 64 bits can tell. Tensors are taken
as they are. -/
def Sized : RawSpeech → Prop
  | .tensor _ => True
  | .array values shape => shapeSize shape = .ofNat values.length

instance : (raw : RawSpeech) → Decidable raw.Sized
  | .tensor _ => .isTrue trivial
  | .array values shape => inferInstanceAs (Decidable (shapeSize shape = .ofNat values.length))

/-- Dimensions of one do not change the product. -/
theorem prod_dimensions (raw : RawSpeech) : raw.dimensions.prod = raw.shape.prod := by
  rw [dimensions]
  induction raw.shape with
  | nil => rfl
  | cons d shape ih =>
    by_cases hd : d = 1
    · rw [List.filter_cons_of_neg (by simpa using hd), ih, List.prod_cons, hd, Nat.one_mul]
    · rw [List.filter_cons_of_pos (by simpa using hd), List.prod_cons, ih, List.prod_cons]

/-- Only an array can fail to have the size of its shape. -/
theorem Made.sized_iff (hm : raw.Made) :
    raw.Sized ↔ shapeSize raw.shape = .ofNat raw.numbers.length := by
  cases hm with
  | tensor ht => exact iff_of_true trivial ht.size_eq
  | array values shape => rw [Sized, numbers, List.length_map, RawSpeech.shape]

/-- What has the size of its shape fits it, or wraps around. -/
theorem Made.sized_iff_fits (hm : raw.Made) : raw.Sized ↔ raw.Fits ∨ raw.WrapsAround := by
  rw [hm.sized_iff, shapeSize_eq_ofNat_iff, WrapsAround]
  constructor
  · exact fun h => (Classical.em raw.Fits).imp_right fun hf => ⟨h, hf⟩
  · rintro (hf | ⟨h, -⟩)
    · exact congrArg (· % 2 ^ 64) hf
    · exact h

/-- Speech that seems to fit its shape is brought to the host as it is. -/
theorem toHost_of_sized (h : raw.Sized) : raw.toHost = .ok (raw.numbers, raw.shape) := by
  cases raw with
  | tensor t => rfl
  | array values shape =>
    have hsize : shapeSize shape = .ofNat values.length := h
    rw [toHost, if_pos hsize, numbers, RawSpeech.shape]

/-- Speech that does not is refused for its shape. -/
theorem toHost_of_not_sized (h : ¬raw.Sized) :
    raw.toHost = .error (shapeMismatch "array" raw.shape raw.numbers.length) := by
  cases raw with
  | tensor t => exact absurd trivial h
  | array values shape =>
    have hsize : ¬shapeSize shape = .ofNat values.length := h
    rw [toHost, if_neg hsize, numbers, List.length_map, RawSpeech.shape]

end RawSpeech

/-! ### Clips -/

namespace Clip

/-- A clip is **well formed** when it has a rate, and channels that divide its samples. -/
structure WellFormed (c : Clip) : Prop where
  rate : 1 ≤ c.sampleRate
  channels : 1 ≤ c.channels
  channels_dvd : c.channels ∣ c.samples.length

/-- The clips that are encoded are the well-formed ones. -/
theorem exists_encode_iff (c : Clip) : (∃ s, Wav.encode c = .ok s) ↔ c.WellFormed := by
  constructor
  · rintro ⟨s, h⟩
    obtain ⟨hrate, hchannels, hdvd, -⟩ := Wav.encode_eq_ok h
    exact ⟨hrate, hchannels, hdvd⟩
  · rintro ⟨hrate, hchannels, hdvd⟩
    obtain ⟨hnone, -⟩ | ⟨-, hbroken⟩ := Wav.refusal?_cases c
    · exact ⟨_, by rw [Wav.encode, hnone]⟩
    · exact absurd ⟨hrate, hchannels, hdvd⟩ hbroken

/-- No clip has the rate zero. -/
theorem effectiveRate_pos (rate : Option Nat) : 0 < effectiveRate rate := by
  rw [effectiveRate]
  cases h : rate.filter (0 < ·) with
  | none => decide
  | some n => simpa using (Option.filter_eq_some_iff.mp h).2

/-- The **layout** of raw speech of the size of its shape, by the number of dimensions that
count. -/
inductive Layout (raw : RawSpeech) : Prop
  | mono (hd : raw.dimensions.length ≤ 1) (h : layout raw = .ok (raw.numbers, 1))
  | interleaved {frames channels : Nat} (hd : raw.dimensions = [frames, channels])
      (hc : channels ≤ Text.max16) (h : layout raw = .ok (raw.numbers, channels))
  | crowded {frames channels : Nat} (hd : raw.dimensions = [frames, channels])
      (hc : Text.max16 < channels) {detail : String}
      (h : layout raw = .error (.generation detail))
  | deep (hd : 2 < raw.dimensions.length) {detail : String}
      (h : layout raw = .error (.generation detail))

variable {raw : RawSpeech} {declared : Option Nat}

/-- One dimension that counts, or none, is one channel. -/
theorem layout_of_mono (h : raw.Sized) (hd : raw.dimensions.length ≤ 1) :
    layout raw = .ok (raw.numbers, 1) := by
  have hhost := RawSpeech.toHost_of_sized h
  rcases hdims : raw.dimensions with _ | ⟨frames, _ | ⟨channels, dims⟩⟩
  all_goals have hfilter : raw.shape.filter (· != 1) = _ := hdims
  · simp only [layout, hhost, hfilter]
  · simp only [layout, hhost, hfilter]
  · simp [hdims] at hd

/-- The last of two dimensions that count is the number of channels. -/
theorem layout_of_interleaved (h : raw.Sized) {frames channels : Nat}
    (hd : raw.dimensions = [frames, channels]) :
    layout raw = if channels ≤ Text.max16 then .ok (raw.numbers, channels)
      else .error (.generation ("too many audio channels: " ++ Text.ofNat channels)) := by
  have hfilter : raw.shape.filter (· != 1) = [frames, channels] := hd
  simp only [layout, RawSpeech.toHost_of_sized h, hfilter]

/-- More than two dimensions that count are refused. -/
theorem layout_of_deep (h : raw.Sized) (hd : 2 < raw.dimensions.length) : layout raw
    = .error (.generation ("unsupported speech output shape " ++ shapeText raw.dimensions)) := by
  have hhost := RawSpeech.toHost_of_sized h
  rcases hdims : raw.dimensions with _ | ⟨frames, _ | ⟨channels, _ | ⟨d, dims⟩⟩⟩
  all_goals have hfilter : raw.shape.filter (· != 1) = _ := hdims
  · simp [hdims] at hd
  · simp [hdims] at hd
  · simp [hdims] at hd
  · simp only [layout, hhost, hfilter]

/-- Speech that does not seem to fit its shape is refused before its dimensions are looked at. -/
theorem layout_of_not_sized (h : ¬raw.Sized) : layout raw
    = .error (.generation (shapeMismatch "array" raw.shape raw.numbers.length).message) := by
  rw [layout, RawSpeech.toHost_of_not_sized h]
  rfl

theorem layout_cases (h : raw.Sized) : Layout raw := by
  by_cases hmono : raw.dimensions.length ≤ 1
  · exact .mono hmono (layout_of_mono h hmono)
  by_cases hdeep : 2 < raw.dimensions.length
  · exact .deep hdeep (layout_of_deep h hdeep)
  obtain ⟨frames, channels, hd⟩ : ∃ frames channels, raw.dimensions = [frames, channels] :=
    List.length_eq_two.mp (by omega)
  have hlayout := layout_of_interleaved h hd
  by_cases hc : channels ≤ Text.max16
  · exact .interleaved hd hc (hlayout.trans (if_pos hc))
  · exact .crowded hd (Nat.lt_of_not_le hc) (hlayout.trans (if_neg hc))

theorem ofRaw_of_ok {samples : List Single} {channels : Nat}
    (h : layout raw = .ok (samples, channels)) :
    ofRaw raw declared = .ok ⟨samples, effectiveRate declared, channels⟩ := by
  rw [ofRaw, h]
  rfl

theorem ofRaw_of_error {e : SynthesisError} (h : layout raw = .error e) :
    ofRaw raw declared = .error e := by
  rw [ofRaw, h]
  rfl

end Clip

/-! ### Normalisation -/

namespace RawSpeech

variable {raw : RawSpeech} {declared : Option Nat}

/-- A number of **channels**: at least one, and no more than 16 bits can say. -/
def IsChannelCount (n : Nat) : Prop := 1 ≤ n ∧ n ≤ Text.max16

/-- Raw speech is **normalised well** when it is refused for the right reasons only, and otherwise
becomes a clip of the same samples that can be encoded. -/
structure NormalisedWell (raw : RawSpeech) (declared : Option Nat) : Prop where
  refused_iff : (∃ e, Clip.ofRaw raw declared = .error e)
    ↔ ¬raw.Fits ∨ 2 < raw.dimensions.length
      ∨ ∃ frames channels, raw.dimensions = [frames, channels] ∧ ¬IsChannelCount channels
  clip : ∀ c, Clip.ofRaw raw declared = .ok c →
    c.WellFormed ∧ c.samples = raw.numbers ∧ ∃ s, Wav.encode c = .ok s

/-- What becomes of raw speech in **every case**. -/
structure Normalised (raw : RawSpeech) (declared : Option Nat) : Prop where
  /-- It is refused for its size, for a third dimension, or for too many channels. -/
  refused_iff : (∃ e, Clip.ofRaw raw declared = .error e)
    ↔ ¬(raw.Fits ∨ raw.WrapsAround) ∨ 2 < raw.dimensions.length
      ∨ ∃ frames channels, raw.dimensions = [frames, channels] ∧ Text.max16 < channels
  /-- No other failure is told but one of generation. -/
  refusal : ∀ e, Clip.ofRaw raw declared = .error e → ∃ detail, e = .generation detail
  /-- The samples stay as they are, the rate is positive, and the channels divide the samples if
  these fit their shape. -/
  clip : ∀ c, Clip.ofRaw raw declared = .ok c → c.samples = raw.numbers
    ∧ 1 ≤ c.sampleRate ∧ c.channels ≤ Text.max16
    ∧ (raw.Fits → c.channels ∣ c.samples.length)
  /-- A clip can be encoded unless it lacks channels or they do not divide the samples. -/
  encoded_iff : ∀ c, Clip.ofRaw raw declared = .ok c →
    ((∃ s, Wav.encode c = .ok s) ↔ ¬raw.LacksChannels ∧ c.channels ∣ c.samples.length)
  /-- What is refused is normalised well, and so is a clip of speech that fits its shape and does
  not lack channels; nothing else is. -/
  well_iff : NormalisedWell raw declared
    ↔ ∀ c, Clip.ofRaw raw declared = .ok c → raw.Fits ∧ ¬raw.LacksChannels

/-- Speech of two dimensions has its channels in every frame. -/
theorem Fits.channels_dvd (h : raw.Fits) {frames channels : Nat}
    (hd : raw.dimensions = [frames, channels]) : channels ∣ raw.numbers.length := by
  have hsize : raw.dimensions.prod = raw.numbers.length := (prod_dimensions raw).trans h
  rw [hd, List.prod_cons, List.prod_singleton] at hsize
  exact ⟨frames, by rw [← hsize, Nat.mul_comm]⟩

/-- What is said of the channels of speech with two dimensions is said of the second one. -/
theorem exists_dimensions_iff {p : Nat → Prop} {frames channels : Nat}
    (hd : raw.dimensions = [frames, channels]) :
    (∃ f c, raw.dimensions = [f, c] ∧ p c) ↔ p channels := by
  rw [hd]
  constructor
  · rintro ⟨f, c, he, hp⟩
    obtain ⟨-, rfl⟩ : frames = f ∧ channels = c := by simpa using he
    exact hp
  · exact fun hp => ⟨frames, channels, rfl, hp⟩

/-- Nothing is said of the channels of speech with other dimensions than two. -/
theorem not_exists_dimensions {p : Nat → Prop} (hd : raw.dimensions.length ≠ 2) :
    ¬∃ f c, raw.dimensions = [f, c] ∧ p c := by
  rintro ⟨f, c, he, -⟩
  exact hd (by rw [he]; rfl)

theorem lacksChannels_iff : raw.LacksChannels ↔ ∃ f c, raw.dimensions = [f, c] ∧ c = 0 :=
  ⟨fun ⟨f, h⟩ => ⟨f, 0, h, rfl⟩, fun ⟨f, _, h, hc⟩ => ⟨f, hc ▸ h⟩⟩

/-- Speech that is refused for a right reason is normalised well. -/
private theorem normalised_of_error {detail : String}
    (h : Clip.ofRaw raw declared = .error (.generation detail))
    (hreason : ¬(raw.Fits ∨ raw.WrapsAround) ∨ 2 < raw.dimensions.length
      ∨ ∃ frames channels, raw.dimensions = [frames, channels] ∧ Text.max16 < channels) :
    Normalised raw declared where
  refused_iff := ⟨fun _ => hreason, fun _ => ⟨_, h⟩⟩
  refusal := fun e he => ⟨detail, Except.error.inj (he.symm.trans h)⟩
  clip := fun c hc => nomatch hc.symm.trans h
  encoded_iff := fun c hc => nomatch hc.symm.trans h
  well_iff := by
    have hright : ¬raw.Fits ∨ 2 < raw.dimensions.length
        ∨ ∃ frames channels, raw.dimensions = [frames, channels] ∧ ¬IsChannelCount channels :=
      hreason.imp (fun hsize hf => hsize (.inl hf))
        (Or.imp_right fun ⟨frames, channels, hd, hc⟩ =>
          ⟨frames, channels, hd, fun hcount => Nat.not_lt.mpr hcount.2 hc⟩)
    exact iff_of_true ⟨⟨fun _ => hright, fun _ => ⟨_, h⟩⟩, fun c hc => nomatch hc.symm.trans h⟩
      fun c hc => nomatch hc.symm.trans h

/-- Speech that becomes a clip is normalised well if it fits its shape and the clip has channels. -/
private theorem normalised_of_clip (hs : raw.Fits ∨ raw.WrapsAround) {channels : Nat}
    (h : Clip.layout raw = .ok (raw.numbers, channels)) (hle : channels ≤ Text.max16)
    (hdvd : raw.Fits → channels ∣ raw.numbers.length) (hrank : ¬2 < raw.dimensions.length)
    (hover : ¬∃ f c, raw.dimensions = [f, c] ∧ Text.max16 < c)
    (hnone : (∃ f c, raw.dimensions = [f, c] ∧ ¬IsChannelCount c) ↔ channels = 0)
    (hlack : raw.LacksChannels ↔ channels = 0) : Normalised raw declared := by
  have hclip : Clip.ofRaw raw declared = .ok ⟨raw.numbers, Clip.effectiveRate declared, channels⟩ :=
    Clip.ofRaw_of_ok h
  have hrate := Clip.effectiveRate_pos declared
  have hok : ∀ c, Clip.ofRaw raw declared = .ok c →
      c = ⟨raw.numbers, Clip.effectiveRate declared, channels⟩ :=
    fun c hc => Except.ok.inj (hc.symm.trans hclip)
  have hnot : ¬∃ e, Clip.ofRaw raw declared = .error e := fun ⟨e, he⟩ => nomatch he.symm.trans hclip
  have hencoded : ∀ c, Clip.ofRaw raw declared = .ok c →
      ((∃ s, Wav.encode c = .ok s) ↔ ¬raw.LacksChannels ∧ c.channels ∣ c.samples.length) := by
    intro c hc
    rw [Clip.exists_encode_iff, hok c hc, hlack]
    constructor
    · exact fun hwell => ⟨Nat.ne_of_gt hwell.channels, hwell.channels_dvd⟩
    · exact fun ⟨hne, hdivides⟩ => ⟨hrate, Nat.pos_of_ne_zero hne, hdivides⟩
  refine ⟨iff_of_false hnot ?_, fun e he => absurd ⟨e, he⟩ hnot, fun c hc => ?_, hencoded, ?_⟩
  · exact not_or.mpr ⟨not_not.mpr hs, not_or.mpr ⟨hrank, hover⟩⟩
  · rw [hok c hc]
    exact ⟨rfl, hrate, hle, hdvd⟩
  · constructor
    · -- It is not refused, so that nothing may be wrong with it.
      intro hwell c _
      have hright := hwell.refused_iff.not.mp hnot
      rw [not_or, not_or, not_not, hnone, ← hlack] at hright
      exact ⟨hright.1, hright.2.2⟩
    · intro hgood
      obtain ⟨hf, hne⟩ := hgood _ hclip
      refine ⟨iff_of_false hnot ?_, fun c hc => ?_⟩
      · rw [hnone, ← hlack]
        exact not_or.mpr ⟨not_not.mpr hf, not_or.mpr ⟨hrank, hne⟩⟩
      · have hsaved := (hencoded c hc).mpr ⟨hne, by rw [hok c hc]; exact hdvd hf⟩
        exact ⟨(Clip.exists_encode_iff c).mp hsaved, by rw [hok c hc], hsaved⟩

/-- **Normalisation.** Raw speech becomes a clip of the same samples, or it is refused for its size,
for its dimensions or for too many channels; and what becomes a clip is normalised well if and only
if it fits its shape and does not lack channels. -/
theorem normalised_of_made (raw : RawSpeech) (hm : raw.Made) (declared : Option Nat) :
    Normalised raw declared := by
  by_cases hsized : raw.Sized
  · have hs := hm.sized_iff_fits.mp hsized
    cases Clip.layout_cases hsized with
    | mono hd h =>
      have hne : raw.dimensions.length ≠ 2 := by omega
      have hone : (1 : Nat) ≠ 0 := Nat.one_ne_zero
      exact normalised_of_clip hs h (by decide) (fun _ => one_dvd _) (by omega)
        (not_exists_dimensions hne) (iff_of_false (not_exists_dimensions hne) hone)
        (lacksChannels_iff.trans (iff_of_false (not_exists_dimensions hne) hone))
    | @interleaved frames channels hd hc h =>
      have hcount : ¬IsChannelCount channels ↔ channels = 0 := by
        rw [IsChannelCount]
        omega
      exact normalised_of_clip hs h hc (fun hf => hf.channels_dvd hd) (by simp [hd])
        ((exists_dimensions_iff hd).not.mpr (Nat.not_lt.mpr hc))
        ((exists_dimensions_iff hd).trans hcount)
        (lacksChannels_iff.trans (exists_dimensions_iff hd))
    | @crowded frames channels hd hc detail h =>
      exact normalised_of_error (Clip.ofRaw_of_error h) (.inr (.inr ⟨frames, channels, hd, hc⟩))
    | deep hd h => exact normalised_of_error (Clip.ofRaw_of_error h) (.inr (.inl hd))
  · exact normalised_of_error (Clip.ofRaw_of_error (Clip.layout_of_not_sized hsized))
      (.inl (hm.sized_iff_fits.not.mp hsized))

/-- A tensor of three stereo frames, in a shape with two dimensions of one. -/
theorem normalised_of_made_stereo :
    let data : List Single := List.replicate 6 (Binary.ofNat .single 0)
    let raw : RawSpeech := .tensor ⟨data, [1, 3, 1, 2], .cpu, .f32⟩
    raw.Made ∧ NormalisedWell raw none := by
  intro data raw
  have hnew : Tensor.new data [1, 3, 1, 2] .cpu .f32 = .ok ⟨data, [1, 3, 1, 2], .cpu, .f32⟩ := rfl
  have hmade : raw.Made := .tensor (.new (by decide) hnew)
  refine ⟨hmade, (normalised_of_made raw hmade none).well_iff.mpr fun _ _ => ⟨rfl, fun hlack => ?_⟩⟩
  have hdimensions : raw.dimensions = [3, 2] := rfl
  exact absurd ((exists_dimensions_iff hdimensions).mp (lacksChannels_iff.mp hlack)) (by decide)

/-- Two frames of no channels are **not normalised well**: they become a clip without channels,
which cannot be encoded. -/
theorem not_normalisedWell_no_channels : ¬NormalisedWell (.array [] [2, 0]) none := by
  intro h
  have hclip : Clip.ofRaw (.array [] [2, 0]) none = .ok ⟨[], 24000, 0⟩ := rfl
  exact absurd (h.clip _ hclip).1.channels (by decide)

/-- Two numbers in a shape whose product is two more than a multiple of `2 ^ 64` are not normalised
well either: they become a clip of three channels, which do not divide two samples. -/
theorem not_normalisedWell_wrapped_around :
    let zero : Double := .ofNat .double 0
    ¬NormalisedWell (.array [zero, zero] [6148914691236517206, 3]) none := by
  intro zero h
  have hclip : Clip.ofRaw (.array [zero, zero] [6148914691236517206, 3]) none
      = .ok ⟨[.ofNat .single 0, .ofNat .single 0], 24000, 3⟩ := by decide +kernel
  exact absurd (h.clip _ hclip).1.channels_dvd (by decide)

end RawSpeech

end SpeechService
