/-!
# A slot

One **slot** that clients wait for in the order in which they asked. A slot that comes free is
handed to the first client in line, which finds that out when it looks; until then the slot counts
as taken, so that nobody can get ahead of the line. A closed slot takes in nobody any more, also
not a client that it was handed to, while the owner stays.

The operations keep the line empty while the slot is free, and once it is closed. `Slot.isBusy`
tells whether the slot is taken.
-/

namespace SpeechService

/-- Who has a slot. -/
inductive Tenure (κ : Type) where
  | free
  /-- A client that knows it. -/
  | owned (client : κ)
  /-- A client that waited and has not looked since. -/
  | handed (client : κ)
deriving DecidableEq, Repr

/-- A **slot**, the line of clients that wait for it, and whether it is closed. -/
structure Slot (κ : Type) where
  tenure : Tenure κ := .free
  line : List κ := []
  closed : Bool := false
deriving DecidableEq, Repr

/-- What a client is told. -/
inductive Admission where
  /-- The slot is its own. -/
  | admitted
  /-- It stands in line. -/
  | waiting
  /-- The slot is closed. -/
  | refused
deriving DecidableEq, Repr

namespace Slot

variable {κ : Type} [DecidableEq κ]

/-- The slot is taken. -/
def isBusy (s : Slot κ) : Bool :=
  match s.tenure with
  | .free => false
  | _ => true

/-- The slot passes on to the first client in line; without a line it comes free. -/
def passOn (s : Slot κ) : Slot κ :=
  match s.line with
  | [] => { s with tenure := .free }
  | next :: rest => { s with tenure := .handed next, line := rest }

/-- A client asks for the slot for the first time. -/
def ask (s : Slot κ) (client : κ) : Slot κ × Admission :=
  if s.closed then (s, .refused)
  else
    match s.tenure with
    | .free => ({ s with tenure := .owned client }, .admitted)
    | _ => ({ s with line := s.line ++ [client] }, .waiting)

/-- A client stops waiting. What was handed to it passes on. -/
def leave (s : Slot κ) (client : κ) : Slot κ :=
  if s.tenure = .handed client then s.passOn
  else { s with line := s.line.filter (· ≠ client) }

/-- A client that asked before looks again. -/
def look (s : Slot κ) (client : κ) : Slot κ × Admission :=
  if s.closed then (s.leave client, .refused)
  else if s.tenure = .handed client then ({ s with tenure := .owned client }, .admitted)
  else (s, .waiting)

/-- The owner gives the slot back. -/
def release (s : Slot κ) (client : κ) : Slot κ :=
  if s.tenure = .owned client then s.passOn else s

/-- Closes the slot and dissolves the line. -/
def close (s : Slot κ) : Slot κ := { s with closed := true, line := [] }

/-- The clients that have something new to see after a change: the one that the slot was handed
to, and those that stood in line when it was closed. -/
def woken (before after : Slot κ) : List κ :=
  (match after.tenure with
    | .handed client => if before.tenure = after.tenure then [] else [client]
    | _ => [])
    ++ (if after.closed ∧ ¬before.closed then before.line else [])

end Slot

end SpeechService
