import SpeechService.Backend
import SpeechService.Request
import SpeechService.Settings.Resolved

/-!
# Tasks

A **task** is what one client has the service do: to load the model, or to speak a text. It goes
through phases, in each of which it either can go on by itself, stands in a line, or waits for a
call to the backend.
-/

namespace SpeechService

/-- What a service knows about its model and its requests. -/
structure ServiceSettings where
  modelId : String := defaultModelId
  device : DevicePreference := .auto
  textMaxChars : Nat := 4000
  defaults : Defaults := {}
deriving DecidableEq, Repr

/-- A **loaded model**: its engine and its processor, and where the engine runs. -/
structure LoadedModel (B : Backend) where
  engine : B.Engine
  processor : B.Processor
  device : Device
  precision : Precision

/-- What a task is about once its request is accepted. -/
inductive Errand where
  /-- To see to it that the model is loaded. -/
  | load
  /-- To speak a text. -/
  | speak (text : SpokenText) (parameters : Parameters)
deriving DecidableEq, Repr

/-- How a task ends. -/
inductive Ending (B : Backend) where
  | loaded (result : Except EngineError (LoadedModel B))
  | spoken (result : Except SynthesisError Clip)
  /-- The engine broke down. -/
  | panicked (message : String)

/-- How far a task has come. -/
inductive Phase (B : Backend) where
  /-- Nothing was looked at yet. -/
  | arrived (request : Request)
  /-- It needs the model. -/
  | accepted (errand : Errand)
  /-- It stands in line to load the model. -/
  | awaitingModel (errand : Errand)
  | loadingEngine (errand : Errand) (device : Device)
      (call : Call (Except EngineError B.Engine))
  | loadingProcessor (errand : Errand) (device : Device) (engine : B.Engine)
      (call : Call (Except EngineError B.Processor))
  /-- It has the model and needs the gate. -/
  | equipped (model : LoadedModel B) (text : SpokenText) (parameters : Parameters)
  /-- It stands in line at the gate. -/
  | awaitingGate (model : LoadedModel B) (text : SpokenText) (parameters : Parameters)
  | generating (model : LoadedModel B) (call : Call Performance)
  | ended (ending : Ending B)

namespace Phase

variable {B : Backend}

/-- How long the call takes that the task waits for, if it waits for one. -/
def delay? : Phase B → Option Nat
  | .loadingEngine _ _ call => some call.delay
  | .loadingProcessor _ _ _ call => some call.delay
  | .generating _ call => some call.delay
  | _ => none

/-- The task stands in a line. -/
def standsInLine : Phase B → Bool
  | .awaitingModel _ => true
  | .awaitingGate .. => true
  | _ => false

/-- How the task ended, if it did. -/
def ending? : Phase B → Option (Ending B)
  | .ended e => some e
  | _ => none

end Phase

/-- How an errand ends when the model cannot be loaded. -/
def Errand.failed {B : Backend} (e : EngineError) : Errand → Ending B
  | .load => .loaded (.error e)
  | .speak _ _ => .spoken (.error (.ofLoad e))

/-- What comes after the model is there. -/
def Errand.withModel {B : Backend} (model : LoadedModel B) : Errand → Phase B
  | .load => .ended (.loaded (.ok model))
  | .speak text parameters => .equipped model text parameters

/-- How a task ends by what became of its generation. Of several outputs, the first one counts. -/
def Performance.ending {B : Backend} (model : LoadedModel B) : Performance → Ending B
  | .speech [] => .spoken (.error (.generation "engine returned no speech output"))
  | .speech (raw :: _) => .spoken (Clip.ofRaw raw (B.samplingRate model.processor))
  | .failure e => .spoken (.error (.ofEngine e))
  | .panic message => .panicked message

/-- The options of a generation; gradients are never recorded. -/
def Parameters.options (p : Parameters) : GenerateOptions :=
  { cfgScale := p.cfgScale, maxNewTokens := p.maxTokens }

end SpeechService
