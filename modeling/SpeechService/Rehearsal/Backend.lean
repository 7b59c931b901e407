import SpeechService.Backend

/-!
# A rehearsed backend

A backend that follows a script: what becomes of every load and of every generation is laid down
beforehand, as well as how long it takes. It keeps a record of what was asked of it.
-/

namespace SpeechService.Rehearsal

/-- What does not change in a **script**. -/
structure Script where
  accelerated : Bool := false
  samplingRate : Option Nat := none
  /-- How long an engine takes to load, in milliseconds. -/
  loadDelay : Nat := 0
  /-- How long a generation takes, in milliseconds. -/
  delay : Nat := 0
  /-- The voices that are refused. -/
  refusedVoices : List (Option String × EngineError) := []

/-- The **record** of a generation. -/
structure Take where
  text : String
  start : Nat
  stop : Nat
  inputs : Inputs
  options : GenerateOptions

/-- What is laid down for the next calls, and what was asked so far. -/
structure Stage where
  now : Nat := 0
  /-- The coming loads of engines: a failure, or none. -/
  engineResults : List (Option EngineError) := []
  processorResults : List (Option EngineError) := []
  /-- The coming generations; where nothing is laid down, the usual speech. -/
  performances : List (Option Performance) := []
  engineLoads : Nat := 0
  processorLoads : Nat := 0
  /-- What was done with engines, in order. -/
  prepared : List String := []
  /-- The text that was encoded last. -/
  text : String := ""
  /-- The generations that have not come to their end. -/
  underway : List Take := []
  /-- The greatest number of generations at a time. -/
  mostUnderway : Nat := 0
  /-- The generations that have come to their end, the first one first. -/
  takes : List Take := []

/-- The engine of a rehearsal knows where it runs. -/
structure Engine where
  device : Device
  precision : Precision

/-- The first of some results, or what holds where none is left. -/
def nextOr {α : Type} (usual : α) : List (Option α) → α
  | some x :: _ => x
  | _ => usual

/-- The result of a load. -/
def loaded {α : Type} (x : α) : List (Option EngineError) → Except EngineError α
  | some e :: _ => .error e
  | _ => .ok x

/-- The usual speech: as many quarters as tokens are allowed. -/
def usualPerformance (engine : Engine) (options : GenerateOptions) : Performance :=
  let samples := List.replicate options.maxNewTokens (Binary.ofRatio .single false 1 4)
  match Tensor.new samples [1, options.maxNewTokens] engine.device engine.precision with
  | .ok t => .speech [.tensor t]
  | .error e => .failure e

namespace Stage

/-- Takes down that a generation begins. -/
def begin (w : Stage) (inputs : Inputs) (options : GenerateOptions) : Stage :=
  let underway := w.underway ++ [⟨w.text, w.now, w.now, inputs, options⟩]
  { w with
    performances := w.performances.tail
    underway
    mostUnderway := max w.mostUnderway underway.length }

/-- Takes down that the oldest generation underway has come to its end. -/
def conclude (w : Stage) : Stage :=
  match w.underway with
  | [] => w
  | take :: rest =>
    { w with underway := rest, takes := w.takes ++ [{ take with stop := w.now }] }

end Stage

/-- The inputs for a text: the numbers of its characters, and the voice. -/
def encode (script : Script) (w : Stage) (text : String) (voice : Option String) :
    Stage × Except EngineError Inputs :=
  match script.refusedVoices.lookup voice with
  | some e => (w, .error e)
  | none =>
    let numbers := text.toList.map fun c => Binary.ofNat .single c.toNat
    ({ w with text },
      .ok [("input_ids", .tensor (.ofList numbers)), ("voice", .value (Json.ofOption voice))])

/-- The backend that follows a script. -/
def Script.backend (script : Script) : Backend where
  World := Stage
  Engine := Engine
  Processor := Unit
  accelerated := script.accelerated
  loadEngine w _ device precision :=
    ({ w with engineLoads := w.engineLoads + 1, engineResults := w.engineResults.tail },
      { delay := script.loadDelay, result := loaded ⟨device, precision⟩ w.engineResults })
  prepare w engine :=
    ({ w with prepared := w.prepared ++ ["set_inference_mode", "strip_encoders"] }, engine)
  loadProcessor w _ :=
    ({ w with
        processorLoads := w.processorLoads + 1
        processorResults := w.processorResults.tail },
      { result := loaded () w.processorResults })
  samplingRate _ := script.samplingRate
  encode w _ text voice := encode script w text voice
  generate w engine inputs options :=
    (w.begin inputs options,
      { delay := script.delay
        result := nextOr (usualPerformance engine options) w.performances })
  conclude := Stage.conclude
  elapse w now := { w with now }

end SpeechService.Rehearsal
