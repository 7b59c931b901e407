import SpeechService.Assembly
import SpeechService.Http.Exchange

/-!
# The front desk

Clients that come with requests for speech at any time. The front desk begins a task for each of
them and passes on what comes of it. A client may go away before it has its response; its task,
once it has begun, goes on all the same, since nobody but the task itself gives back what it has.

Clients and tasks go by the same numbers, and a number that was used is not used again.
-/

namespace SpeechService

/-- How far a client has come. -/
inductive Visit.Stage where
  /-- Nothing was done for it yet. -/
  | here
  /-- Its task has begun. -/
  | waiting
  | answered (response : HttpResponse)
  /-- It went away without a response. -/
  | gone
deriving DecidableEq, Repr

/-- The **visit** of a client. -/
structure Visit where
  request : Request
  stage : Visit.Stage := .here
deriving DecidableEq, Repr

/-- A **front desk**: a service and its clients. -/
structure FrontDesk (B : Backend) where
  service : Service B
  visits : List (Nat × Visit) := []

/-- What happens at a front desk. -/
inductive DeskEvent where
  /-- A client comes with a request. -/
  | come (number : Nat) (request : Request)
  /-- The operator asks for the model to be loaded. -/
  | summon (number : Nat)
  /-- A task begins for a client. -/
  | begin (number : Nat)
  /-- A task goes on, if it does not wait for a call. -/
  | advance (number : Nat)
  /-- The call that a task waits for comes back. -/
  | answer (number : Nat)
  /-- What came of a task is passed on to the client. -/
  | respond (number : Nat)
  /-- A client goes away. -/
  | leave (number : Nat)
deriving DecidableEq, Repr

namespace FrontDesk

variable {B : Backend}

/-- The visit of a client. -/
def visit? (d : FrontDesk B) (number : Nat) : Option Visit := d.visits.lookup number

/-- The number was used before. -/
def knows (d : FrontDesk B) (number : Nat) : Bool :=
  (d.visit? number).isSome || (d.service.phase? number).isSome

/-- The front desk with the visit of a client. -/
def put (d : FrontDesk B) (number : Nat) (v : Visit) : FrontDesk B :=
  { d with visits := (number, v) :: d.visits.filter (·.1 ≠ number) }

/-- The front desk after something has happened to the service. -/
def inside (d : FrontDesk B) (event : ServiceEvent B) : FrontDesk B :=
  { d with service := d.service.step event }

/-- Begins a task for a client. -/
def begin (d : FrontDesk B) (number : Nat) (v : Visit) : FrontDesk B :=
  match v.stage with
  | .here => (d.inside (.request number v.request)).put number { v with stage := .waiting }
  | _ => d

/-- Passes on what came of a task to its client. -/
def respond (d : FrontDesk B) (encoder : Encoder) (number : Nat) (v : Visit) : FrontDesk B :=
  match v.stage, (d.service.phase? number).bind Phase.ending? with
  | .waiting, some ending =>
    d.put number { v with stage := .answered (Http.ofEnding encoder ending) }
  | _, _ => d

/-- Lets a client go away that has no response yet. -/
def leave (d : FrontDesk B) (number : Nat) (v : Visit) : FrontDesk B :=
  match v.stage with
  | .here | .waiting => d.put number { v with stage := .gone }
  | _ => d

/-- Something is done for a client if there is one. -/
def withVisit (d : FrontDesk B) (number : Nat) (change : Visit → FrontDesk B) : FrontDesk B :=
  match d.visit? number with
  | some v => change v
  | none => d

/-- Carries out an event. -/
def step (encoder : Encoder) (d : FrontDesk B) : DeskEvent → FrontDesk B
  | .come number request => if d.knows number then d else d.put number { request }
  | .summon number => if d.knows number then d else d.inside (.summon number)
  | .begin number => d.withVisit number (d.begin number)
  | .advance number => d.inside (.advance number)
  | .answer number => d.inside (.answer number)
  | .respond number => d.withVisit number (d.respond encoder number)
  | .leave number => d.withVisit number (d.leave number)

/-- The front desk after some events. -/
def run (encoder : Encoder) (d : FrontDesk B) (es : List DeskEvent) : FrontDesk B :=
  es.foldl (step encoder) d

end FrontDesk

/-- The front desk of a new service of these settings. -/
def Settings.frontDesk (s : Settings) (search : DeviceSearch) (files : Files) :
    FrontDesk (s.backend search) :=
  { service := s.start search files }

end SpeechService
