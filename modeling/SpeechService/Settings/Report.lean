import SpeechService.Settings.Resolved

/-!
# The report on settings

What the service says about its settings when it starts: one line each, and a warning for every
value that was ignored.
-/

namespace SpeechService

/-- How grave a line of the log is. -/
inductive LogLevel where
  | info
  | warn
deriving DecidableEq, Repr

/-- The name of a level. -/
def LogLevel.name : LogLevel → String
  | .info => "INFO"
  | .warn => "WARN"

/-- A **line** of the log: its level, its message and its fields. -/
structure LogLine where
  level : LogLevel
  message : String
  fields : List (String × String) := []
deriving DecidableEq, Repr

namespace Settings

/-- The messages about the settings. -/
def messages (s : Settings) : List String :=
  ["=== Application Configuration ===",
    "Server: " ++ s.server.address,
    "Model: " ++ s.modelId,
    "Device: " ++ s.device.name,
    "Text Max Chars: " ++ Text.ofNat s.textMaxChars,
    "Default CFG Scale: " ++ s.defaultCfgScale.render,
    "Default Max Tokens: " ++ Text.ofNat s.defaultMaxTokens,
    "Default Voice: " ++ s.defaultVoice.getD "<none>",
    "Eager Load: " ++ Field.flagText s.eagerLoad,
    "Synthetic Backend: " ++ Text.ofNat s.synthetic.sampleRate ++ " Hz, "
      ++ Text.ofNat s.synthetic.samplesPerToken ++ " samples/token, "
      ++ Text.ofNat s.synthetic.latencyMs ++ " ms latency",
    "Log Level: " ++ s.log.level,
    "================================="]

/-- The lines about the settings, then those about the ignored values. -/
def report (s : Settings) : List LogLine :=
  s.messages.map (fun m => ⟨.info, m, []⟩)
    ++ s.ignored.map fun (key, value) =>
      ⟨.warn, "Invalid config value ignored, using default", [("key", key), ("value", value)]⟩

end Settings

end SpeechService
