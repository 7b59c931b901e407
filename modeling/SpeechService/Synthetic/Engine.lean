import SpeechService.Backend
import SpeechService.Settings.Resolved
import SpeechService.Synthetic.Model
import SpeechService.Synthetic.Tone

/-!
# The synthetic engine

An engine that needs no weights: it says every character of a text as a tone. The processor turns
a text into inputs, and the engine turns inputs into speech, after checking that it was prepared
and that the inputs are where the engine is.
-/

namespace SpeechService

/-- The **processor** of a model: its sample rate, and its voices where it lists them. -/
structure SyntheticProcessor where
  samplingRate : Nat
  voices : Option (List String)
deriving DecidableEq, Repr

/-- An **engine** on its device. -/
structure SyntheticEngine where
  device : Device
  precision : Precision
  samplesPerToken : Nat
  /-- It was prepared for generation. -/
  inferenceMode : Bool := false
deriving DecidableEq, Repr

/-- What a **search** for an accelerated device goes by. -/
structure DeviceSearch where
  isPresent : Bool := false
  /-- The devices that the operator shows to the service; unset, these are all. -/
  shown : Option String := none
deriving DecidableEq, Repr

/-- There is an accelerated device that is not hidden: an empty list hides it, and so does `-1`. -/
def DeviceSearch.found (d : DeviceSearch) : Bool :=
  match d.shown with
  | none => d.isPresent
  | some list => d.isPresent ∧ Text.trim list ≠ "" ∧ Text.trim list ≠ "-1"

namespace SyntheticSettings

/-- Whether there is an accelerated device: as the settings say, else what the search finds. -/
def accelerated (s : SyntheticSettings) (search : DeviceSearch) : Bool :=
  s.accelerator.getD search.found

/-- Loads the engine of a model for a device. -/
def loadEngine (s : SyntheticSettings) (accelerated : Bool) (files : Files) (modelId : String)
    (device : Device) (precision : Precision) : Except EngineError SyntheticEngine :=
  if device.isAccelerated ∧ ¬accelerated then
    .error (.device ("device " ++ device.name ++ " is not available"))
  else
    (ModelSource.resolve files modelId).map fun _ =>
      { device, precision, samplesPerToken := max s.samplesPerToken 1 }

/-- Loads the processor of a model. -/
def loadProcessor (s : SyntheticSettings) (files : Files) (modelId : String) :
    Except EngineError SyntheticProcessor :=
  (Preprocessor.ofModel files modelId).map fun p => ⟨p.rate.getD s.sampleRate, p.voices⟩

end SyntheticSettings

namespace SyntheticProcessor

/-- The voice can be used: there is none, or none are listed, or it is listed. -/
def knows (p : SyntheticProcessor) (voice : Option String) : Bool :=
  match voice, p.voices with
  | some v, some known => known.contains v
  | _, _ => true

/-- The inputs for a text that is said by a voice. -/
def encode (p : SyntheticProcessor) (text : String) (voice : Option String) :
    Except EngineError Inputs :=
  if p.knows voice then do
    let numbers := text.toList.map fun c => Binary.ofNat .single c.toNat
    let tokens ← Tensor.new numbers [1, numbers.length] .cpu .f32
    let pitch := (voice.map Tone.pitchOf).getD 220
    return [("input_ids", .tensor tokens), ("voice", .value (Json.ofOption voice)),
      ("voice_pitch", .value (.float (.ofNat .double pitch)))]
  else .error (.invalidInput ("unknown voice: " ++ voice.getD ""))

end SyntheticProcessor

namespace SyntheticEngine

/-- Prepares an engine for generation. -/
def prepare (e : SyntheticEngine) : SyntheticEngine := { e with inferenceMode := true }

/-- The pitch that inputs ask for. -/
def pitch (inputs : Inputs) : Single :=
  match inputs.get? "voice_pitch" with
  | some (.value v) => (v.double?.map (Binary.convert .single)).getD Tone.basePitch
  | _ => Tone.basePitch

/-- Turns inputs into speech. -/
def generate (e : SyntheticEngine) (inputs : Inputs) (options : GenerateOptions) :
    Except EngineError (List RawSpeech) :=
  if options.gradients ∨ ¬e.inferenceMode then
    .error (.inference "engine is not in inference mode")
  else
    match (inputs.get? "input_ids").bind Input.tensor? with
    | none => .error (.invalidInput "missing input_ids")
    | some tokens =>
      if tokens.device ≠ e.device then
        .error (.device ("input_ids on " ++ tokens.device.name ++ " but engine on "
          ++ e.device.name))
      else
        let samples := Tone.render e.samplesPerToken (pitch inputs)
          (Tone.amplitude options.cfgScale) options.maxNewTokens tokens.data
        (Tensor.new samples [1, samples.length] e.device e.precision).map fun t => [.tensor t]

end SyntheticEngine

end SpeechService
