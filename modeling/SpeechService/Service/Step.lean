import SpeechService.Service.Task
import SpeechService.Slot

/-!
# The service

The service as a machine. Its state holds the world of the backend, the model once it is loaded,
two slots, and the tasks. The first slot is for loading: whoever has it loads the model, and it is
closed for good when that succeeds. The second slot is the gate: whoever has it generates.

`Service.step` carries out one event. Tasks go on in small steps that may follow one another in
any order; the world may change in between.
-/

namespace SpeechService

/-- A **service** and all that is going on in it. -/
structure Service (B : Backend) where
  settings : ServiceSettings := {}
  world : B.World
  /-- The model, once it is loaded. -/
  model : Option (LoadedModel B) := none
  /-- The slot of whoever loads the model. -/
  loading : Slot Nat := {}
  /-- The slot of whoever generates. -/
  gate : Slot Nat := {}
  tasks : List (Nat × Phase B) := []

/-- What happens to a service. Tasks are known by numbers. -/
inductive ServiceEvent (B : Backend) where
  /-- A request comes in. -/
  | request (task : Nat) (request : Request)
  /-- Somebody asks for the model to be loaded. -/
  | summon (task : Nat)
  /-- A task goes on, if it does not wait for a call. -/
  | advance (task : Nat)
  /-- The call that a task waits for comes back. -/
  | answer (task : Nat)
  /-- A task is dropped. -/
  | cancel (task : Nat)
  /-- The gate is closed. -/
  | close
  /-- The world changes by itself. -/
  | change (world : B.World)

namespace Service

variable {B : Backend}

/-! ### What can be seen -/

/-- The model is loaded. -/
def isReady (s : Service B) : Bool := s.model.isSome

/-- The device of the model; without a model, the processor. -/
def device (s : Service B) : Device := (s.model.map (·.device)).getD .cpu

/-- Somebody has the gate. -/
def isBusy (s : Service B) : Bool := s.gate.isBusy

/-- The phase of a task. -/
def phase? (s : Service B) (task : Nat) : Option (Phase B) := s.tasks.lookup task

/-! ### Changes -/

/-- The service without a task. -/
def forget (s : Service B) (task : Nat) : Service B :=
  { s with tasks := s.tasks.filter (·.1 ≠ task) }

/-- The service with a task in a phase. -/
def enter (s : Service B) (task : Nat) (phase : Phase B) : Service B :=
  { s with tasks := (task, phase) :: (s.forget task).tasks }

/-- A task looks at its request. -/
def accept (s : Service B) (task : Nat) (request : Request) : Service B :=
  s.enter task <|
    match SpokenText.parse s.settings.textMaxChars request.text with
    | .error e => .ended (.spoken (.error (.ofText e)))
    | .ok text => .accepted (.speak text (s.settings.defaults.resolve request))

/-- A task begins to load the model. -/
def startLoading (s : Service B) (task : Nat) (errand : Errand) : Service B :=
  let device := s.settings.device.settle B.accelerated
  let (world, call) := B.loadEngine s.world s.settings.modelId device device.precision
  { s with world }.enter task (.loadingEngine errand device call)

/-- A task hears whether it is to load the model. Who is refused finds the model loaded. -/
def heedLoading (s : Service B) (task : Nat) (errand : Errand) :
    Slot Nat × Admission → Service B
  | (loading, .admitted) => { s with loading }.startLoading task errand
  | (loading, .waiting) => { s with loading }.enter task (.awaitingModel errand)
  | (loading, .refused) =>
    match s.model with
    | some model => { s with loading }.enter task (errand.withModel model)
    | none => { s with loading }

/-- A task needs the model. -/
def seekModel (s : Service B) (task : Nat) (errand : Errand) : Service B :=
  match s.model with
  | some model => s.enter task (errand.withModel model)
  | none => s.heedLoading task errand (s.loading.ask task)

/-- Loading failed: nothing is kept, and the next in line may try. -/
def failLoading (s : Service B) (task : Nat) (errand : Errand) (e : EngineError) : Service B :=
  { s with loading := s.loading.release task }.enter task (.ended (errand.failed e))

/-- The engine is there or not. An engine is prepared before its processor is loaded. -/
def takeEngine (s : Service B) (task : Nat) (errand : Errand) (device : Device) :
    Except EngineError B.Engine → Service B
  | .error e => s.failLoading task errand e
  | .ok engine =>
    let (world, engine) := B.prepare s.world engine
    let (world, call) := B.loadProcessor world s.settings.modelId
    { s with world }.enter task (.loadingProcessor errand device engine call)

/-- The processor is there or not. With it, the model is loaded, for good. -/
def takeProcessor (s : Service B) (task : Nat) (errand : Errand) (device : Device)
    (engine : B.Engine) : Except EngineError B.Processor → Service B
  | .error e => s.failLoading task errand e
  | .ok processor =>
    let model : LoadedModel B := ⟨engine, processor, device, device.precision⟩
    { s with model := some model, loading := s.loading.close.release task }.enter task
      (errand.withModel model)

/-- A task that has the gate encodes its text and begins to generate. Inputs are moved to the
device of the engine. -/
def startGenerating (s : Service B) (task : Nat) (model : LoadedModel B) (text : SpokenText)
    (p : Parameters) : Service B :=
  let (world, inputs) := B.encode s.world model.processor text.text p.voice
  match inputs with
  | .error e =>
    { s with world, gate := s.gate.release task }.enter task
      (.ended (.spoken (.error (.ofEngine e))))
  | .ok inputs =>
    let (world, call) := B.generate world model.engine (inputs.toDevice model.device) p.options
    { s with world }.enter task (.generating model call)

/-- A task hears whether it is let in at the gate. -/
def heedGate (s : Service B) (task : Nat) (model : LoadedModel B) (text : SpokenText)
    (p : Parameters) : Slot Nat × Admission → Service B
  | (gate, .admitted) => { s with gate }.startGenerating task model text p
  | (gate, .waiting) => { s with gate }.enter task (.awaitingGate model text p)
  | (gate, .refused) => { s with gate }.enter task (.ended (.spoken (.error .gateClosed)))

/-- A generation has come to its end: the gate is given back. -/
def finishGenerating (s : Service B) (task : Nat) (model : LoadedModel B) (p : Performance) :
    Service B :=
  { s with world := B.conclude s.world, gate := s.gate.release task }.enter task
    (.ended (p.ending model))

/-- A task is dropped, whatever it is doing. -/
def abandon (s : Service B) (task : Nat) : Phase B → Service B
  | .awaitingModel _ => { s with loading := s.loading.leave task }.forget task
  | .loadingEngine .. | .loadingProcessor .. =>
    { s with loading := s.loading.release task }.forget task
  | .awaitingGate .. => { s with gate := s.gate.leave task }.forget task
  | .generating .. => { s with gate := s.gate.release task }.forget task
  | _ => s.forget task

/-- A task goes on from a phase in which it waits for no call. -/
def advance (s : Service B) (task : Nat) : Phase B → Service B
  | .arrived request => s.accept task request
  | .accepted errand => s.seekModel task errand
  | .awaitingModel errand => s.heedLoading task errand (s.loading.look task)
  | .equipped model text p => s.heedGate task model text p (s.gate.ask task)
  | .awaitingGate model text p => s.heedGate task model text p (s.gate.look task)
  | _ => s

/-- The call that a task waits for comes back. -/
def answer (s : Service B) (task : Nat) : Phase B → Service B
  | .loadingEngine errand device call => s.takeEngine task errand device call.result
  | .loadingProcessor errand device engine call =>
    s.takeProcessor task errand device engine call.result
  | .generating model call => s.finishGenerating task model call.result
  | _ => s

/-- Something is done with a task if there is one. -/
def withTask (s : Service B) (task : Nat) (change : Phase B → Service B) : Service B :=
  match s.phase? task with
  | some phase => change phase
  | none => s

/-- Carries out an event. A task that is there already is not started again. -/
def step (s : Service B) : ServiceEvent B → Service B
  | .request task request =>
    if (s.phase? task).isSome then s else s.enter task (.arrived request)
  | .summon task => if (s.phase? task).isSome then s else s.enter task (.accepted .load)
  | .advance task => s.withTask task (s.advance task)
  | .answer task => s.withTask task (s.answer task)
  | .cancel task => s.withTask task (s.abandon task)
  | .close => { s with gate := s.gate.close }
  | .change world => { s with world }

end Service

end SpeechService
