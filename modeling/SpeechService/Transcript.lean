import SpeechService.Service.Step

/-!
# Transcribed backends

The **transcribed** form of a backend does everything as before and writes down, beside its world,
the calls to the processor and to the engine of a loaded model, in the order in which they were
made. Of a call to the processor it also writes down what came back.
-/

namespace SpeechService

/-- A **call** to a loaded model. -/
inductive SpeechCall (B : Backend) where
  /-- A text is to be made into inputs, and this came back. -/
  | encode (processor : B.Processor) (text : String) (voice : Option String)
      (result : Except EngineError Inputs)
  /-- An engine is to generate. -/
  | generate (engine : B.Engine) (inputs : Inputs) (options : GenerateOptions)

/-- The call is for speech. -/
def SpeechCall.isGenerate {B : Backend} : SpeechCall B → Bool
  | .encode .. => false
  | .generate .. => true

/-- The backend with a **transcript** of the calls to loaded models. -/
def Backend.transcribed (B : Backend) : Backend where
  World := B.World × List (SpeechCall B)
  Engine := B.Engine
  Processor := B.Processor
  accelerated := B.accelerated
  loadEngine world modelId device precision :=
    let (inner, call) := B.loadEngine world.1 modelId device precision
    ((inner, world.2), call)
  prepare world engine :=
    let (inner, engine) := B.prepare world.1 engine
    ((inner, world.2), engine)
  loadProcessor world modelId :=
    let (inner, call) := B.loadProcessor world.1 modelId
    ((inner, world.2), call)
  samplingRate := B.samplingRate
  encode world processor text voice :=
    let (inner, result) := B.encode world.1 processor text voice
    ((inner, world.2 ++ [.encode processor text voice result]), result)
  generate world engine inputs options :=
    let (inner, call) := B.generate world.1 engine inputs options
    ((inner, world.2 ++ [.generate engine inputs options]), call)
  conclude world := (B.conclude world.1, world.2)
  elapse world time := (B.elapse world.1 time, world.2)

namespace Service

variable {B : Backend}

/-- The calls to loaded models so far. -/
def transcript (s : Service B.transcribed) : List (SpeechCall B) := s.world.2

/-- The transcribed service of which nothing was asked yet. -/
def transcribing (settings : ServiceSettings) (world : B.World) : Service B.transcribed :=
  { settings, world := (world, []) }

end Service

end SpeechService
