import SpeechService.Gate

/-!
# Rehearsing a gate

A rehearsal drives one gate by hand. What work ends with is laid down beforehand under the name of
its client, and every step polls the client that it names, once. Each step is answered with what
is said about that client and whether the gate is busy.
-/

namespace SpeechService.Rehearsal

/-- A **step** of the rehearsal, and what it does before its client is polled. -/
inductive GateStep (κ α : Type) where
  | create (client : κ) (purpose : Purpose)
  /-- Lays down what the client's work ends with. -/
  | finish (client : κ) (value : α)
  /-- Drops a client and what is laid down for it. -/
  | drop (client : κ)
  | close (client : Option κ)
  | poll (client : Option κ)

/-- A **gate under rehearsal**, and what is laid down. -/
structure GateRehearsal (κ α : Type) where
  gate : Gate κ := {}
  endings : List (κ × α) := []

namespace GateRehearsal

variable {κ α : Type} [DecidableEq κ]

/-- What is laid down, but for one client. -/
def endingsBut (r : GateRehearsal κ α) (name : κ) : List (κ × α) :=
  r.endings.filter (·.1 ≠ name)

/-- Polls the client of a step. Work that ends takes away what was laid down for it. -/
def poll (r : GateRehearsal κ α) : Option κ → GateRehearsal κ α × ClientReport α
  | none => (r, .absent)
  | some name =>
    let (gate, report) := r.gate.poll name (r.endings.lookup name)
    let endings := match report with
      | .done _ => r.endingsBut name
      | _ => r.endings
    ({ gate, endings }, report)

/-- Carries out an event that is not about polling. -/
def perform (r : GateRehearsal κ α) (event : GateEvent κ α) : GateRehearsal κ α :=
  { r with gate := (r.gate.step event).1 }

/-- Carries out a step. -/
def step (r : GateRehearsal κ α) : GateStep κ α → GateRehearsal κ α × ClientReport α
  | .create name purpose => (r.perform (.create name purpose)).poll (some name)
  | .finish name value =>
    ({ r with endings := (name, value) :: r.endingsBut name } : GateRehearsal κ α).poll (some name)
  | .drop name =>
    ({ r.perform (.drop name) with endings := r.endingsBut name } : GateRehearsal κ α).poll
      (some name)
  | .close name => (r.perform .close).poll name
  | .poll name => r.poll name

/-- Carries out steps; after each one, what is said about its client and whether the gate is
busy. -/
def run (r : GateRehearsal κ α) : List (GateStep κ α) → List (ClientReport α × Bool)
  | [] => []
  | s :: rest =>
    let (r, report) := r.step s
    (report, r.gate.isBusy) :: r.run rest

end GateRehearsal

end SpeechService.Rehearsal
