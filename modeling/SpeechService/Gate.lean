import SpeechService.Slot

/-!
# The generation gate

At most one generation runs at a time. A client of the gate either takes a permit, which it keeps
until it drops it, or has some work done, which starts when the gate lets it in and gives the slot
back when it ends. Clients make progress only when they are polled.

A gate is a machine: `Gate.step` carries out one event and tells the state of the client it is
about.
-/

namespace SpeechService

/-- What a client wants the slot for. -/
inductive Purpose where
  /-- To keep it until the client is dropped. -/
  | permit
  /-- To have some work done. -/
  | work
deriving DecidableEq, Repr

/-- How far a client has come. -/
inductive Stage where
  /-- It was not polled yet. -/
  | fresh
  /-- It asked for the slot. -/
  | waiting
  /-- It has its permit, or its work has started. -/
  | inside
deriving DecidableEq, Repr

/-- A **client** of the gate. -/
structure Client where
  purpose : Purpose
  stage : Stage := .fresh
deriving DecidableEq, Repr

/-- What can be said about a client; `α` is what work ends with. -/
inductive ClientReport (α : Type) where
  /-- There is no such client. -/
  | absent
  | waiting
  | holding
  | running
  | done (value : α)
  /-- The gate is closed. -/
  | refused
deriving DecidableEq, Repr

/-- A **gate**: its slot and its clients by name. -/
structure Gate (κ : Type) where
  slot : Slot κ := {}
  clients : List (κ × Client) := []
deriving DecidableEq, Repr

/-- What happens to a gate. -/
inductive GateEvent (κ α : Type) where
  /-- A client comes into being. One of the same name is dropped first. -/
  | create (client : κ) (purpose : Purpose)
  /-- A client is polled. Work that runs, or starts now, ends with the given value, if any. -/
  | poll (client : κ) (ending : Option α)
  /-- A client is dropped, whatever it is doing. -/
  | drop (client : κ)
  | close
deriving DecidableEq, Repr

namespace Gate

variable {κ α : Type} [DecidableEq κ]

/-- The client of a name. -/
def client? (g : Gate κ) (name : κ) : Option Client := g.clients.lookup name

/-- The gate without the client of a name. -/
def forget (g : Gate κ) (name : κ) : Gate κ :=
  { g with clients := g.clients.filter (·.1 ≠ name) }

/-- The gate with a client in place of the one of the same name. -/
def put (g : Gate κ) (name : κ) (c : Client) : Gate κ :=
  { g with clients := (name, c) :: (g.forget name).clients }

/-- Somebody is inside or about to go in. -/
def isBusy (g : Gate κ) : Bool := g.slot.isBusy

/-- Drops a client: it leaves the line, or gives the slot back. -/
def drop (g : Gate κ) (name : κ) : Gate κ :=
  match g.client? name with
  | none => g
  | some ⟨_, .fresh⟩ => g.forget name
  | some ⟨_, .waiting⟩ => { g.forget name with slot := g.slot.leave name }
  | some ⟨_, .inside⟩ => { g.forget name with slot := g.slot.release name }

/-- A client that is inside is polled: a permit is kept, and work goes on or ends. -/
def attend (g : Gate κ) (name : κ) (purpose : Purpose) (ending : Option α) :
    Gate κ × ClientReport α :=
  match purpose, ending with
  | .permit, _ => (g, .holding)
  | .work, none => (g, .running)
  | .work, some value => ({ g.forget name with slot := g.slot.release name }, .done value)

/-- A client hears whether it is let in. -/
def heed (g : Gate κ) (name : κ) (purpose : Purpose) (ending : Option α) :
    Slot κ × Admission → Gate κ × ClientReport α
  | (slot, .refused) => ({ g.forget name with slot }, .refused)
  | (slot, .waiting) => ({ g.put name ⟨purpose, .waiting⟩ with slot }, .waiting)
  | (slot, .admitted) =>
    ({ g.put name ⟨purpose, .inside⟩ with slot } : Gate κ).attend name purpose ending

/-- Polls a client. -/
def poll (g : Gate κ) (name : κ) (ending : Option α) : Gate κ × ClientReport α :=
  match g.client? name with
  | none => (g, .absent)
  | some ⟨purpose, .fresh⟩ => g.heed name purpose ending (g.slot.ask name)
  | some ⟨purpose, .waiting⟩ => g.heed name purpose ending (g.slot.look name)
  | some ⟨purpose, .inside⟩ => g.attend name purpose ending

/-- Carries out an event; gives the gate after it and what is said about the polled client. -/
def step (g : Gate κ) : GateEvent κ α → Gate κ × ClientReport α
  | .create name purpose => ((g.drop name).put name { purpose }, .absent)
  | .poll name ending => g.poll name ending
  | .drop name => (g.drop name, .absent)
  | .close => ({ g with slot := g.slot.close }, .absent)

end Gate

end SpeechService
