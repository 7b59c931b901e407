import SpeechService.Settings.Resolved

/-!
# Settings as texts

`Settings.toRaw` writes every setting as the text that gives it back, so that settings can be
handed on in the form in which a source would state them.
-/

namespace SpeechService.Settings

/-- Every setting as the text that gives it back. -/
def toRaw (s : Settings) : RawSettings where
  server := s.server
  log := s.log
  modelId := some s.modelId
  textMaxChars := some (Text.ofNat s.textMaxChars)
  defaultCfgScale := some s.defaultCfgScale.render
  defaultMaxTokens := some (Text.ofNat s.defaultMaxTokens)
  defaultVoice := s.defaultVoice
  device := some s.device.name
  eagerLoad := some (Field.flagText s.eagerLoad)
  synthetic :=
    { sampleRate := some (Text.ofNat s.synthetic.sampleRate)
      samplesPerToken := some (Text.ofNat s.synthetic.samplesPerToken)
      latencyMs := some (Text.ofNat s.synthetic.latencyMs)
      accelerator := s.synthetic.accelerator.map Field.flagText }

end SpeechService.Settings
