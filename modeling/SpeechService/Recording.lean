import SpeechService.Service.Step

/-!
# Recorded backends

A backend can be watched at work. Its **recorded** form does everything as before and keeps, beside
its world, the calls to its loader in the order in which they were begun. What happens to a service
happens to the watched service likewise; the world may change by itself, the record may not.
-/

namespace SpeechService

/-- A call to the loader. -/
inductive LoaderCall where
  | engine (modelId : String) (device : Device) (precision : Precision)
  | processor (modelId : String)
deriving DecidableEq, Repr

/-- The call is for an engine. -/
def LoaderCall.isEngine : LoaderCall → Bool
  | .engine .. => true
  | .processor _ => false

/-- The backend with a **record** of the calls to its loader. -/
def Backend.recorded (B : Backend) : Backend where
  World := B.World × List LoaderCall
  Engine := B.Engine
  Processor := B.Processor
  accelerated := B.accelerated
  loadEngine world modelId device precision :=
    let (inner, call) := B.loadEngine world.1 modelId device precision
    ((inner, world.2 ++ [.engine modelId device precision]), call)
  prepare world engine :=
    let (inner, engine) := B.prepare world.1 engine
    ((inner, world.2), engine)
  loadProcessor world modelId :=
    let (inner, call) := B.loadProcessor world.1 modelId
    ((inner, world.2 ++ [.processor modelId]), call)
  samplingRate := B.samplingRate
  encode world processor text voice :=
    let (inner, inputs) := B.encode world.1 processor text voice
    ((inner, world.2), inputs)
  generate world engine inputs options :=
    let (inner, call) := B.generate world.1 engine inputs options
    ((inner, world.2), call)
  conclude world := (B.conclude world.1, world.2)
  elapse world time := (B.elapse world.1 time, world.2)

variable {B : Backend}

/-- The same event for a watched service, whose record stays as it is. -/
def ServiceEvent.watched (record : List LoaderCall) : ServiceEvent B → ServiceEvent B.recorded
  | .request task r => .request task r
  | .summon task => .summon task
  | .advance task => .advance task
  | .answer task => .answer task
  | .cancel task => .cancel task
  | .close => .close
  | .change world => .change (world, record)

namespace Service

/-- The calls to the loader so far. -/
def record (s : Service B.recorded) : List LoaderCall := s.world.2

/-- How often an engine was to be loaded. -/
def engineLoads (s : Service B.recorded) : Nat := s.record.countP LoaderCall.isEngine

/-- Carries out an event for a watched service. -/
def watch (s : Service B.recorded) (event : ServiceEvent B) : Service B.recorded :=
  s.step (event.watched s.record)

/-- A watched service after some events. -/
def watchAll (s : Service B.recorded) (events : List (ServiceEvent B)) : Service B.recorded :=
  events.foldl watch s

/-- The watched service of which nothing was asked yet. -/
def watched (settings : ServiceSettings) (world : B.World) : Service B.recorded :=
  { settings, world := (world, []) }

end Service

end SpeechService
