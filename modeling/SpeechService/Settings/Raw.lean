import SpeechService.Device
import SpeechService.Binary.Decimal

/-!
# Raw settings

What the sources of a configuration say. The settings of the server and of the log have their
final form already; all others are texts, absent or given, that `Settings.ofRaw` looks into. The
field readers here say which texts count as which values.
-/

namespace SpeechService

/-- Where the server listens and how much it takes in. -/
structure ServerSettings where
  host : String := "0.0.0.0"
  port : Nat := 8000
  bodyLimit : Nat := 1024 * 1024
deriving DecidableEq, Repr

/-- The address of a server. -/
def ServerSettings.address (s : ServerSettings) : String := s.host ++ ":" ++ Text.ofNat s.port

/-- What is logged, and how. -/
structure LogSettings where
  level : String := "info"
  json : Bool := false
deriving DecidableEq, Repr

/-- The texts given for the synthetic engine. -/
structure RawSynthetic where
  sampleRate : Option String := none
  samplesPerToken : Option String := none
  latencyMs : Option String := none
  accelerator : Option String := none
deriving DecidableEq, Repr

/-- **Raw settings**, as the sources give them. -/
structure RawSettings where
  server : ServerSettings := {}
  log : LogSettings := {}
  modelId : Option String := none
  textMaxChars : Option String := none
  defaultCfgScale : Option String := none
  defaultMaxTokens : Option String := none
  defaultVoice : Option String := none
  device : Option String := none
  eagerLoad : Option String := none
  synthetic : RawSynthetic := {}
deriving DecidableEq, Repr

namespace Field

/-- A natural number of 64 bits between blanks. -/
def natural? (given : Option String) : Option Nat :=
  given.bind fun s => Text.natural? Text.max64 (Text.trimList s.toList)

/-- A positive integer of 64 bits between blanks. -/
def positiveInteger? (given : Option String) : Option Nat := (natural? given).filter (0 < ·)

/-- A positive finite number between blanks. -/
def positiveNumber? (given : Option String) : Option Double :=
  (given.bind fun s => Binary.read? (Text.trimList s.toList)).filter Binary.isPositive

/-- A text that is not blank, without the blanks around it. -/
def text? (given : Option String) : Option String := given.bind Text.trimmed?

/-- The value of one of the words for yes and no. -/
def flagOfWord? (word : String) : Option Bool :=
  if word ∈ ["1", "true", "yes", "on"] then some true
  else if word ∈ ["0", "false", "no", "off"] then some false
  else none

/-- The word for yes or no that is written. -/
def flagText (b : Bool) : String := if b then "true" else "false"

/-- Yes or no in one of their words, in any case and between blanks. -/
def flag? (given : Option String) : Option Bool :=
  given.bind fun s => flagOfWord? (Text.lower (Text.trim s))

/-- The name of a device preference. -/
def device? (given : Option String) : Option DevicePreference :=
  given.bind fun s => (DevicePreference.parse s).toOption

end Field

end SpeechService
