import SpeechService.Synthetic.Engine

/-!
# The synthetic backend

The synthetic engine as a backend. Its world is the files, which it only reads; loading takes no
time, and generation takes a fixed one.
-/

namespace SpeechService

/-- The backend of the synthetic engine; `accelerated` tells whether there is an accelerated
device. -/
def SyntheticSettings.backend (s : SyntheticSettings) (accelerated : Bool) : Backend where
  World := Files
  Engine := SyntheticEngine
  Processor := SyntheticProcessor
  accelerated := accelerated
  loadEngine files modelId device precision :=
    (files, { result := s.loadEngine accelerated files modelId device precision })
  prepare files engine := (files, engine.prepare)
  loadProcessor files modelId := (files, { result := s.loadProcessor files modelId })
  samplingRate p := some p.samplingRate
  encode files p text voice := (files, p.encode text voice)
  generate files engine inputs options :=
    (files,
      match engine.generate inputs options with
      | .ok outputs => { delay := s.latencyMs, result := .speech outputs }
      | .error e => { result := .failure e })
  conclude := id
  elapse files _ := files

end SpeechService
