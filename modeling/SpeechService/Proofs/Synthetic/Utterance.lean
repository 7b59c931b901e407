import SpeechService.Assembly
import SpeechService.Proofs.Speech.Normalised
import SpeechService.Service.Encoder

/-!
# Utterances

What a loaded synthetic model makes of a text. A model is **coherent** when its engine was prepared
and runs where the model says it does; every model that is loaded is. A coherent model refuses
nothing but a voice that it does not know: its inputs have a shape that fits, they are on the device
of the engine, the speech is one channel whose rate is positive, and the clip can be encoded
(`LoadedModel.ofEnding_utterance`).
-/

namespace SpeechService

theorem shapeSize_row (n : Nat) : shapeSize [1, n] = .ofNat n := by
  simp [shapeSize]

/-! ### From text to inputs -/

namespace SyntheticProcessor

variable {p : SyntheticProcessor} {voice : Option String}

/-- The numbers of a text. -/
def numbers (text : String) : List Single := text.toList.map fun c => Binary.ofNat .single c.toNat

/-- The pitch of a voice. -/
def voicePitch (voice : Option String) : Double :=
  .ofNat .double ((voice.map Tone.pitchOf).getD 220)

/-- The inputs for a text, on a device. -/
def inputsOn (device : Device) (text : String) (voice : Option String) : Inputs :=
  [("input_ids", .tensor ⟨numbers text, [1, (numbers text).length], device, .f32⟩),
    ("voice", .value (Json.ofOption voice)), ("voice_pitch", .value (.float (voicePitch voice)))]

theorem toDevice_inputsOn (here there : Device) (text : String) (voice : Option String) :
    (inputsOn here text voice).toDevice there = inputsOn there text voice := rfl

/-- A voice that is known gives inputs; their shape fits. -/
theorem encode_of_knows (h : p.knows voice = true) (text : String) :
    p.encode text voice = .ok (inputsOn .cpu text voice) := by
  have hstore : (numbers text).map Precision.f32.store = numbers text := List.map_id _
  have hnew : Tensor.new (numbers text) [1, (numbers text).length] .cpu .f32 =
      .ok ⟨numbers text, [1, (numbers text).length], .cpu, .f32⟩ := by
    rw [Tensor.new, if_pos (shapeSize_row _), hstore]
  rw [encode, if_pos h]
  show (do
    let tokens ← Tensor.new (numbers text) [1, (numbers text).length] .cpu .f32
    return _) = _
  rw [hnew]
  rfl

/-- Any other voice is refused. -/
theorem encode_of_not_knows (h : p.knows voice = false) (text : String) :
    p.encode text voice = .error (.invalidInput ("unknown voice: " ++ voice.getD "")) := by
  rw [encode, if_neg (by simp [h])]

/-- A voice is unknown when the model lists voices, and this one is not among them. -/
theorem knows_eq_false_iff : p.knows voice = false ↔
    ∃ v known, voice = some v ∧ p.voices = some known ∧ v ∉ known := by
  rw [knows.eq_def]
  split
  · next v known hv => simp [hv]
  · next hno =>
    refine ⟨by simp, ?_⟩
    rintro ⟨v, known, hvoice, hv, -⟩
    exact absurd hv (hno v known hvoice)

end SyntheticProcessor

/-! ### From inputs to a clip -/

namespace SyntheticEngine

variable {e : SyntheticEngine}

/-- The samples of a text. -/
def samples (e : SyntheticEngine) (text : String) (p : Parameters) : List Single :=
  (Tone.render e.samplesPerToken (.convert .single (SyntheticProcessor.voicePitch p.voice))
    (Tone.amplitude p.cfgScale) p.maxTokens (SyntheticProcessor.numbers text)).map
      e.precision.store

private theorem get?_numbers (device : Device) (text : String) (voice : Option String) :
    (SyntheticProcessor.inputsOn device text voice).get? "input_ids" =
      some (.tensor ⟨SyntheticProcessor.numbers text,
        [1, (SyntheticProcessor.numbers text).length], device, .f32⟩) := by
  simp [SyntheticProcessor.inputsOn, Inputs.get?]

private theorem get?_pitch (device : Device) (text : String) (voice : Option String) :
    (SyntheticProcessor.inputsOn device text voice).get? "voice_pitch" =
      some (.value (.float (SyntheticProcessor.voicePitch voice))) := by
  have h₁ : ("voice_pitch" == "input_ids") = false := by decide
  have h₂ : ("voice_pitch" == "voice") = false := by decide
  simp [SyntheticProcessor.inputsOn, Inputs.get?, List.lookup_cons, h₁, h₂]

private theorem pitch_of_get? {inputs : Inputs} {x : Double}
    (h : inputs.get? "voice_pitch" = some (.value (.float x))) :
    pitch inputs = Binary.convert .single x := by
  rw [pitch, h]
  rfl

/-- An engine that was prepared speaks; the shape of its speech fits. -/
theorem generate_inputsOn (h : e.inferenceMode = true) (text : String) (p : Parameters) :
    e.generate (SyntheticProcessor.inputsOn e.device text p.voice) p.options =
      .ok [.tensor ⟨e.samples text p, [1, (e.samples text p).length], e.device, e.precision⟩] := by
  have hmode : ¬(p.options.gradients = true ∨ ¬e.inferenceMode = true) := by
    simp [Parameters.options, h]
  rw [generate, if_neg hmode, get?_numbers, pitch_of_get? (get?_pitch _ _ _)]
  simp only [Option.bind_some, Input.tensor?, ne_eq, not_true_eq_false, if_false, Tensor.new,
    shapeSize_row, if_true, Except.map, Parameters.options, samples, List.length_map]

end SyntheticEngine

/-! ### From a clip to a response -/

/-- Speech of one row is one channel. -/
theorem Clip.ofRaw_row (data : List Single) (device : Device) (precision : Precision)
    (rate : Option Nat) :
    Clip.ofRaw (.tensor ⟨data, [1, data.length], device, precision⟩) rate =
      .ok ⟨data, effectiveRate rate, 1⟩ := by
  have hlayout : Clip.layout (.tensor ⟨data, [1, data.length], device, precision⟩) =
      .ok (data, 1) := by
    rw [layout, RawSpeech.toHost]
    by_cases h : data.length = 1 <;> simp [h]
  rw [ofRaw, hlayout]
  rfl

/-- One channel at a positive rate can be written. -/
theorem Wav.encode_of_one_channel {c : Clip} (hr : 0 < c.sampleRate) (hc : c.channels = 1) :
    Wav.encode c = .ok (Wav.file 1 c.sampleRate (c.samples.map Wav.pcm)) := by
  have hno : Wav.refusal? c = none := by
    simp [Wav.refusal?, hc, Nat.mod_one, Nat.pos_iff_ne_zero.mp hr]
  rw [Wav.encode, hno, hc]

namespace LoadedModel

variable {s : SyntheticSettings} {accelerated : Bool}

/-- The engine of a model. -/
def synthetic (m : LoadedModel (s.backend accelerated)) : SyntheticEngine := m.engine

/-- The processor of a model. -/
def reader (m : LoadedModel (s.backend accelerated)) : SyntheticProcessor := m.processor

/-- A model is **coherent** when its engine was prepared and runs on the device of the model. -/
structure Coherent (m : LoadedModel (s.backend accelerated)) : Prop where
  prepared : m.synthetic.inferenceMode = true
  device_eq : m.synthetic.device = m.device

/-- The clip of a text. -/
def clip (m : LoadedModel (s.backend accelerated)) (text : String) (p : Parameters) : Clip where
  samples := m.synthetic.samples text p
  sampleRate := Clip.effectiveRate (some m.reader.samplingRate)
  channels := 1

/-- The **utterance** of a text: its clip, unless the voice is unknown. -/
def utterance (m : LoadedModel (s.backend accelerated)) (text : String) (p : Parameters) :
    Except SynthesisError Clip :=
  if m.reader.knows p.voice then .ok (m.clip text p)
  else .error (.validation ("unknown voice: " ++ p.voice.getD ""))

/-- The speech that the engine makes of a text. -/
def speech (m : LoadedModel (s.backend accelerated)) (text : String) (p : Parameters) :
    RawSpeech :=
  .tensor ⟨m.synthetic.samples text p, [1, (m.synthetic.samples text p).length],
    m.synthetic.device, m.synthetic.precision⟩

variable {m : LoadedModel (s.backend accelerated)} {text : String} {p : Parameters}

theorem ending_speech (h : m.reader.knows p.voice = true) :
    (Performance.speech [m.speech text p]).ending m = .spoken (m.utterance text p) := by
  rw [utterance, if_pos h]
  exact congrArg Ending.spoken (Clip.ofRaw_row _ _ _ _)

/-- The file of a text. -/
def file (m : LoadedModel (s.backend accelerated)) (text : String) (p : Parameters) :
    SpokenFile where
  content := Wav.file 1 (m.clip text p).sampleRate ((m.clip text p).samples.map Wav.pcm)
  contentType := Wav.contentType
  sampleRate := (m.clip text p).sampleRate
  durationMs := (m.clip text p).durationMs

/-- The clip of a text is always encoded. -/
theorem file_clip (m : LoadedModel (s.backend accelerated)) (text : String) (p : Parameters) :
    Wav.encoder.file (m.clip text p) = .ok (m.file text p) := by
  have henc := Wav.encode_of_one_channel (c := m.clip text p) (Clip.effectiveRate_pos _) rfl
  rw [Encoder.file, show Wav.encoder.encode (m.clip text p) = _ from henc]
  rfl

end LoadedModel

/-! ### Generation in a service -/

namespace Service

variable {s : SyntheticSettings} {accelerated : Bool} {σ : Service (s.backend accelerated)}
  {m : LoadedModel (s.backend accelerated)} {text : SpokenText} {p : Parameters}

/-- The call by which an engine begins to speak. -/
private theorem generate_of_ok {engine : SyntheticEngine} {inputs : Inputs}
    {options : GenerateOptions} {outputs : List RawSpeech}
    (h : engine.generate inputs options = .ok outputs) (files : Files) :
    (s.backend accelerated).generate files engine inputs options =
      (files, ⟨s.latencyMs, .speech outputs⟩) := by
  simp only [SyntheticSettings.backend, h]

/-- With a known voice, a coherent model begins to speak. -/
theorem startGenerating_of_knows (hm : m.Coherent) (hk : m.reader.knows p.voice = true) (t : Nat) :
    σ.startGenerating t m text p =
      σ.enter t (.generating m ⟨s.latencyMs, .speech [m.speech text.text p]⟩) := by
  have henc : (s.backend accelerated).encode σ.world m.processor text.text p.voice =
      (σ.world, .ok (SyntheticProcessor.inputsOn .cpu text.text p.voice)) :=
    congrArg (Prod.mk σ.world) (SyntheticProcessor.encode_of_knows hk text.text)
  have hgen : m.synthetic.generate
      ((SyntheticProcessor.inputsOn .cpu text.text p.voice).toDevice m.device) p.options =
        .ok [m.speech text.text p] := by
    rw [SyntheticProcessor.toDevice_inputsOn, ← hm.device_eq]
    exact SyntheticEngine.generate_inputsOn hm.prepared text.text p
  have hcall : (s.backend accelerated).generate σ.world m.engine
      ((SyntheticProcessor.inputsOn .cpu text.text p.voice).toDevice m.device) p.options =
        (σ.world, ⟨s.latencyMs, .speech [m.speech text.text p]⟩) := generate_of_ok hgen σ.world
  rw [startGenerating, henc]
  exact congrArg (fun c : Files × Call Performance =>
    ({ σ with world := c.1 } : Service _).enter t (.generating m c.2)) hcall

/-- With an unknown voice the gate is given back. -/
theorem startGenerating_of_not_knows (hk : m.reader.knows p.voice = false) (t : Nat) :
    σ.startGenerating t m text p =
      { σ with gate := σ.gate.release t }.enter t (.ended (.spoken (m.utterance text.text p))) := by
  have henc : (s.backend accelerated).encode σ.world m.processor text.text p.voice =
      (σ.world, .error (.invalidInput ("unknown voice: " ++ p.voice.getD ""))) :=
    congrArg (Prod.mk σ.world) (SyntheticProcessor.encode_of_not_knows hk text.text)
  rw [startGenerating, henc, LoadedModel.utterance, if_neg (by simp [hk])]
  rfl

end Service

end SpeechService
