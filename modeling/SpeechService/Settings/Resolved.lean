import SpeechService.Request
import SpeechService.Settings.Raw
import SpeechService.Speech

/-!
# Settings

`Settings.ofRaw` looks into every raw text on its own. A text that cannot be used gives way to the
default of its field and, unless it is blank, is noted in the list of ignored values; so a bad
value never stops the service from starting. `Settings.check?` finds what does stop it.
-/

namespace SpeechService

/-- The settings of the synthetic engine. -/
structure SyntheticSettings where
  sampleRate : Nat := defaultSampleRate
  samplesPerToken : Nat := 960
  latencyMs : Nat := 0
  /-- Whether there is an accelerated device; unset, it is looked for. -/
  accelerator : Option Bool := none
deriving DecidableEq, Repr

/-- The model that is loaded where no other is named. -/
def defaultModelId : String := "kugelaudio/kugelaudio-0-open"

/-- **Settings** of the service. -/
structure Settings where
  server : ServerSettings := {}
  log : LogSettings := {}
  modelId : String := defaultModelId
  textMaxChars : Nat := 4000
  defaultCfgScale : Double := .ofNat .double 3
  defaultMaxTokens : Nat := 2048
  defaultVoice : Option String := none
  device : DevicePreference := .auto
  eagerLoad : Bool := true
  synthetic : SyntheticSettings := {}
  /-- The keys whose values were ignored, with these values. -/
  ignored : List (String × String) := []
deriving DecidableEq, Repr

/-- A positive integer of 32 bits. One that needs more bits is none, though it is not noted. -/
def Field.positive32? (given : Option String) : Option Nat :=
  (Field.positiveInteger? given).filter (· ≤ Text.max32)

/-- The settings of the synthetic engine from their texts. -/
def SyntheticSettings.ofRaw (raw : RawSynthetic) : SyntheticSettings where
  sampleRate := (Field.positive32? raw.sampleRate).getD defaultSampleRate
  samplesPerToken := (Field.positive32? raw.samplesPerToken).getD 960
  latencyMs := (Field.natural? raw.latencyMs).getD 0
  accelerator := Field.flag? raw.accelerator

namespace Settings

/-- The entry for a value that could not be used. Blank values are not worth a note. -/
def note {α : Type} (key : String) (given : Option String) (used : Option α) :
    List (String × String) :=
  match given, used with
  | some s, none => if Text.isAllBlank s then [] else [(key, s)]
  | _, _ => []

/-- All notes on raw settings, in the order of the fields. -/
def notes (raw : RawSettings) : List (String × String) :=
  note "text_max_chars" raw.textMaxChars (Field.positiveInteger? raw.textMaxChars)
    ++ note "default_cfg_scale" raw.defaultCfgScale (Field.positiveNumber? raw.defaultCfgScale)
    ++ note "default_max_tokens" raw.defaultMaxTokens
      (Field.positiveInteger? raw.defaultMaxTokens)
    ++ note "device" raw.device (Field.device? raw.device)
    ++ note "eager_load" raw.eagerLoad (Field.flag? raw.eagerLoad)
    ++ note "synthetic.sample_rate" raw.synthetic.sampleRate
      (Field.positiveInteger? raw.synthetic.sampleRate)
    ++ note "synthetic.samples_per_token" raw.synthetic.samplesPerToken
      (Field.positiveInteger? raw.synthetic.samplesPerToken)
    ++ note "synthetic.latency_ms" raw.synthetic.latencyMs
      (Field.natural? raw.synthetic.latencyMs)
    ++ note "synthetic.accelerator" raw.synthetic.accelerator
      (Field.flag? raw.synthetic.accelerator)

/-- Settings from their texts. A ceiling on tokens that needs more than 32 bits is clamped. -/
def ofRaw (raw : RawSettings) : Settings where
  server := raw.server
  log := raw.log
  modelId := (Field.text? raw.modelId).getD defaultModelId
  textMaxChars := (Field.positiveInteger? raw.textMaxChars).getD 4000
  defaultCfgScale := (Field.positiveNumber? raw.defaultCfgScale).getD (.ofNat .double 3)
  defaultMaxTokens :=
    ((Field.positiveInteger? raw.defaultMaxTokens).map (min · Text.max32)).getD 2048
  defaultVoice := Field.text? raw.defaultVoice
  device := (Field.device? raw.device).getD .auto
  eagerLoad := (Field.flag? raw.eagerLoad).getD true
  synthetic := .ofRaw raw.synthetic
  ignored := notes raw

/-- What a request's parameters default to. -/
def defaults (s : Settings) : Defaults := ⟨s.defaultVoice, s.defaultCfgScale, s.defaultMaxTokens⟩

/-- Why the service cannot start with its settings. -/
inductive Invalid where
  | zeroPort
  | blankHost
  | zeroBodyLimit
deriving DecidableEq, Repr

/-- The message for settings that the service cannot start with. -/
def Invalid.message : Invalid → String
  | .zeroPort => "Server port cannot be 0"
  | .blankHost => "Server host cannot be empty"
  | .zeroBodyLimit => "Body limit cannot be 0"

/-- The first reason not to start, if there is one. -/
def check? (s : Settings) : Option Invalid :=
  if s.server.port = 0 then some .zeroPort
  else if Text.isAllBlank s.server.host then some .blankHost
  else if s.server.bodyLimit = 0 then some .zeroBodyLimit
  else none

end Settings

end SpeechService
