import SpeechService.Service.Step

/-!
# Sessions

A session runs a service in an imagined time: calls take exactly as long as they say, and nothing
else takes any time. A task runs until it has to wait. Tasks that are woken run in the order in
which they were woken, and only when none is left does time go on to the next moment for which
something is due.
-/

namespace SpeechService

/-- What is due at some moment. -/
inductive Alarm where
  /-- The call that a task waits for comes back. -/
  | answer (task : Nat)
  /-- The gate is closed. -/
  | close
deriving DecidableEq, Repr

/-- A **session**: a service, the time in milliseconds, the tasks that can run, and what is due
later, in the order in which it was arranged. -/
structure Session (B : Backend) where
  service : Service B
  now : Nat := 0
  ready : List Nat := []
  due : List (Nat × Alarm) := []
  /-- The number of the next task. -/
  next : Nat := 0

namespace Session

variable {B : Backend}

/-- Carries out an event; tasks that have something new to see become ready. -/
def perform (s : Session B) (event : ServiceEvent B) : Session B :=
  let after := s.service.step event
  { s with
    service := after
    ready := s.ready ++ s.service.loading.woken after.loading ++ s.service.gate.woken after.gate }

/-- The greatest number of steps between two moments at which a task waits. -/
def maxSteps : Nat := 16

/-- Lets a task run until it has to wait, for at most so many steps. -/
def runTask (task : Nat) : Nat → Session B → Session B
  | 0, s => s
  | steps + 1, s =>
    match s.service.phase? task with
    | none | some (.ended _) => s
    | some phase =>
      match phase.delay? with
      | some 0 => runTask task steps (s.perform (.answer task))
      | some delay => { s with due := s.due ++ [(s.now + delay, .answer task)] }
      | none =>
        let s := s.perform (.advance task)
        match phase, s.service.phase? task with
        | .awaitingModel _, some (.awaitingModel _) => s
        | .awaitingGate .., some (.awaitingGate ..) => s
        | _, _ => runTask task steps s

/-- The first alarm of those that are due earliest, and the others. -/
def earliest? : List (Nat × Alarm) → Option ((Nat × Alarm) × List (Nat × Alarm))
  | [] => none
  | a :: rest =>
    match earliest? rest with
    | none => some (a, [])
    | some (b, others) => if b.1 < a.1 then some (b, a :: others) else some (a, rest)

/-- Time goes on to a moment. -/
def elapseTo (s : Session B) (time : Nat) : Session B :=
  { s.perform (.change (B.elapse s.service.world time)) with now := time }

/-- What is due happens. -/
def ring (s : Session B) : Alarm → Session B
  | .answer task => runTask task maxSteps (s.perform (.answer task))
  | .close => s.perform .close

/-- Runs everything until nothing is due any more; `bound` bounds the number of turns. -/
def settle : Nat → Session B → Session B
  | 0, s => s
  | bound + 1, s =>
    match s.ready with
    | task :: rest => settle bound (runTask task maxSteps { s with ready := rest })
    | [] =>
      match earliest? s.due with
      | none => s
      | some ((time, alarm), others) =>
        settle bound (({ s with due := others }.elapseTo time).ring alarm)

/-- What a client wants. -/
inductive Order where
  /-- The model is to be loaded. -/
  | load
  | speak (request : Request)

/-- Starts a task. -/
def start (s : Session B) (order : Order) : Session B :=
  let event : ServiceEvent B := match order with
    | .load => .summon s.next
    | .speak request => .request s.next request
  { s.perform event with ready := s.ready ++ [s.next], next := s.next + 1 }

/-- A bound for the turns that some tasks take: each waits at most for two slots and three
calls. -/
def turns (tasks : Nat) : Nat := 16 * (tasks + 1)

/-- Serves some clients at once, in the order of the list, and closes the gate after a while if
asked to, or before all else if the while is none; gives how each task ended. -/
def serve (s : Session B) (orders : List Order) (closeAfter : Option Nat) :
    Session B × List (Option (Ending B)) :=
  let first := s.next
  let s := match closeAfter with
    | none => s
    | some 0 => s.perform .close
    | some delay => { s with due := s.due ++ [(s.now + delay, .close)] }
  let s := settle (turns orders.length) (orders.foldl start s)
  let tasks := (List.range orders.length).map (first + ·)
  let endings := tasks.map fun task => (s.service.phase? task).bind Phase.ending?
  ({ s with service := tasks.foldl Service.forget s.service }, endings)

end Session

end SpeechService
