import SpeechService.Settings.Layers
import SpeechService.Settings.Resolved
import SpeechService.Text.Quoted

/-!
# Loading the settings

The stacked layers are read field by field. A field of the server or of the log takes what can be
understood as its kind of value; all other fields take anything that has a text. A value that no
field can take stops the loading, and so do settings that the service cannot start with:
`Settings.load` gives the settings or the reason why there are none.
-/

namespace SpeechService

/-- Something given that cannot be taken. -/
inductive Mismatch where
  /-- A value of another kind. The field is known, unless a whole section is meant. -/
  | kind (found expected : String) (key : Option String) (origin : Option Origin)
  /-- Too few values for a section whose fields are given by their places. -/
  | length (count : Nat) (structName : String) (fields : Nat)
deriving DecidableEq, Repr

/-- The message for something that cannot be taken. -/
def Mismatch.message : Mismatch → String
  | .kind found expected key origin =>
    "invalid type: " ++ found ++ ", expected " ++ expected
      ++ (key.map fun k => " for key `" ++ k ++ "`").getD ""
      ++ (origin.map (" in " ++ ·.text)).getD ""
  | .length count structName fields =>
    "invalid length " ++ Text.ofNat count ++ ", expected struct " ++ structName ++ " with "
      ++ Text.ofNat fields ++ " elements"

/-- Why there are no settings. -/
inductive ConfigError where
  /-- A file is missing, or does not follow its form. -/
  | unreadable
  | mismatch (cause : Mismatch)
  | invalid (cause : Settings.Invalid)
deriving DecidableEq, Repr

/-- The message about settings that could not be loaded. -/
def ConfigError.message : ConfigError → String
  | .unreadable => "Failed to load configuration"
  | .mismatch cause =>
    "Failed to parse configuration: Failed to deserialize config: " ++ cause.message
  | .invalid cause => "Configuration validation failed: " ++ cause.message

namespace Store

/-- A **reader** of the value of a field, given with the name of the field. -/
abbrev Reader (α : Type) := String → Store → Except Mismatch α

/-! ### Values -/

/-- A value that is no text, no truth value and no number. -/
def refused {α : Type} (expected : String) : Reader α
  | key, .table _ origin => .error (.kind "map" expected (some key) origin)
  | key, .array _ origin => .error (.kind "sequence" expected (some key) origin)
  | key, .leaf _ origin => .error (.kind "unit value" expected (some key) origin)

/-- The text of a value that has one. -/
def text : Reader String
  | _, .leaf (.string s) _ => .ok s
  | _, .leaf (.bool b) _ => .ok (Field.flagText b)
  | _, .leaf (.integer n) _ => .ok (Text.ofInt n)
  | _, .leaf (.float x) _ => .ok x.render
  | key, s => refused "a string" key s

/-- A text that is understood as a natural number of 64 bits. -/
def natural? (s : String) : Option Nat :=
  let word := Text.lower s
  if word ∈ ["true", "on", "yes"] then some 1
  else if word ∈ ["false", "off", "no"] then some 0
  else Text.natural? Text.max64 s.toList

/-- A natural number of 64 bits. Numbers with a point are rounded and clamped. -/
def natural : Reader Nat
  | key, .leaf (.string s) origin =>
    match natural? s with
    | some n => .ok n
    | none => .error (.kind ("string " ++ Text.quoted s) "an integer" (some key) origin)
  | _, .leaf (.bool b) _ => .ok b.toNat
  | key, .leaf (.integer n) origin =>
    if 0 ≤ n then .ok n.toNat
    else .error (.kind ("64-bit integer `" ++ Text.ofInt n ++ "`")
      "an unsigned 64 bit or less integer" (some key) origin)
  | _, .leaf (.float x) _ => .ok (x.clampNat Text.max64 Binary.rounded)
  | key, s => refused "an integer" key s

/-- A natural number of 16 bits. -/
def natural16 : Reader Nat := fun key s => do
  let n ← natural key s
  if n ≤ Text.max16 then return n
  else throw (.kind ("64-bit unsigned integer `" ++ Text.ofNat n ++ "`")
    "an unsigned 16 bit integer" (some key) none)

/-- Yes or no. Every number but zero means yes. -/
def flag : Reader Bool
  | key, .leaf (.string s) origin =>
    match Field.flagOfWord? (Text.lower s) with
    | some b => .ok b
    | none =>
      .error (.kind ("string " ++ Text.quoted (Text.lower s)) "a boolean" (some key) origin)
  | _, .leaf (.bool b) _ => .ok b
  | _, .leaf (.integer n) _ => .ok (n ≠ 0)
  | _, .leaf (.float x) _ => .ok (x.code ≠ 0)
  | key, s => refused "a boolean" key s

/-- A text, or nothing. -/
def textOrNull : Reader (Option String)
  | _, .leaf .null _ => .ok none
  | key, s => (text key s).map some

end Store

/-! ### Sections -/

/-- A **section** of the settings: its key, the name of its structure in messages, and its fields
in their order. -/
structure Section where
  key : String
  structName : String
  fields : List String
deriving DecidableEq, Repr

/-- What is given for a section. -/
inductive Section.Given where
  /-- Values under the names of fields. -/
  | named (table : Store)
  /-- Values in the order of the fields. -/
  | placed (items : List Store)

namespace Section

/-- The settings of the server. -/
def server : Section := ⟨"server", "ServerConfig", ["host", "port", "body_limit_bytes"]⟩

/-- The settings of the log. -/
def log : Section := ⟨"log", "LogConfig", ["level", "json"]⟩

/-- The settings of the synthetic engine. -/
def synthetic : Section :=
  ⟨"synthetic", "RawSyntheticConfig",
    ["sample_rate", "samples_per_token", "latency_ms", "accelerator"]⟩

/-- What a value that is no section is called. -/
def called : Scalar → String
  | .null => "unit value"
  | .bool b => "boolean `" ++ Field.flagText b ++ "`"
  | .integer n => "integer `" ++ Text.ofInt n ++ "`"
  | .float x => "floating point `" ++ x.renderPointed ++ "`"
  | .string s => "string " ++ Text.quoted s

/-- What a store gives for a section. -/
def given (sect : Section) (s : Store) : Except Mismatch Given :=
  match s.get? sect.key with
  | none => .ok (.named .empty)
  | some (.table ms origin) => .ok (.named (.table ms origin))
  | some (.array items _) => .ok (.placed items)
  | some (.leaf v _) => .error (.kind (called v) ("struct " ++ sect.structName) none none)

/-- What is given for a field, and the name of the field in messages. -/
def field? (sect : Section) (g : Given) (field : String) : Option (String × Store) :=
  match g with
  | .named table => (table.get? field).map (sect.key ++ "." ++ field, ·)
  | .placed items =>
    let place := sect.fields.idxOf field
    items[place]?.map (sect.key ++ "[" ++ Text.ofNat place ++ "]", ·)

/-- A field that has a default. -/
def read {α : Type} (sect : Section) (g : Given) (r : Store.Reader α) (fallback : α)
    (field : String) : Except Mismatch α :=
  match sect.field? g field with
  | some (name, value) => r name value
  | none => .ok fallback

/-- A field that may be left out, but not where the fields are given by their places. -/
def readText (sect : Section) (g : Given) (field : String) : Except Mismatch (Option String) :=
  match sect.field? g field, g with
  | some (name, value), _ => Store.textOrNull name value
  | none, .named _ => .ok none
  | none, .placed items => .error (.length items.length sect.structName sect.fields.length)

end Section

/-- Reads the raw settings from the stacked layers. -/
def RawSettings.ofStore (s : Store) : Except Mismatch RawSettings := do
  let blank : RawSettings := {}
  let server ← Section.server.given s
  let host ← Section.server.read server Store.text blank.server.host "host"
  let port ← Section.server.read server Store.natural16 blank.server.port "port"
  let bodyLimit ←
    Section.server.read server Store.natural blank.server.bodyLimit "body_limit_bytes"
  let log ← Section.log.given s
  let level ← Section.log.read log Store.text blank.log.level "level"
  let json ← Section.log.read log Store.flag blank.log.json "json"
  let text (key : String) := ((s.get? key).map (Store.textOrNull key)).getD (.ok none)
  let modelId ← text "model_id"
  let textMaxChars ← text "text_max_chars"
  let defaultCfgScale ← text "default_cfg_scale"
  let defaultMaxTokens ← text "default_max_tokens"
  let defaultVoice ← text "default_voice"
  let device ← text "device"
  let eagerLoad ← text "eager_load"
  let synthetic ← Section.synthetic.given s
  let sampleRate ← Section.synthetic.readText synthetic "sample_rate"
  let samplesPerToken ← Section.synthetic.readText synthetic "samples_per_token"
  let latencyMs ← Section.synthetic.readText synthetic "latency_ms"
  let accelerator ← Section.synthetic.readText synthetic "accelerator"
  return {
    server := { host, port, bodyLimit }
    log := { level, json }
    modelId, textMaxChars, defaultCfgScale, defaultMaxTokens, defaultVoice, device, eagerLoad
    synthetic := { sampleRate, samplesPerToken, latencyMs, accelerator } }

namespace Settings

/-- The settings of raw ones, if the service can start with them. -/
def checked (raw : RawSettings) : Except ConfigError Settings :=
  match (ofRaw raw).check? with
  | some cause => .error (.invalid cause)
  | none => .ok (ofRaw raw)

/-- The settings that some layers make together on top of what the service brings along. -/
def ofLayers (layers : List Layer) : Except ConfigError Settings :=
  match RawSettings.ofStore (Layer.builtIn.writeAll (Layer.stack layers).members) with
  | .error cause => .error (.mismatch cause)
  | .ok raw => checked raw

/-- Loads the settings from the files and the environment; without a path, from the usual
files. -/
def load (files : Files) (environment : List (String × String)) (path : Option String) :
    Except ConfigError Settings :=
  match Layer.all? files environment path with
  | none => .error .unreadable
  | some layers => ofLayers layers

end Settings

end SpeechService
