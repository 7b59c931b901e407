import SpeechService.Gate
import SpeechService.Proofs.Slot.Roster
import SpeechService.Proofs.Slot.Standing

/-!
# Runs of a gate

A **run** carries out events one after another. At every moment of every run the slot of the gate
fits the standing of the clients (`Gate.Sound.run`): what a client believes about the slot and
what the slot knows about the client never drift apart, whatever is polled, dropped or closed, and
in which order.
-/

namespace SpeechService

/-- The standing of a client by how far it has come. -/
def Stage.standing : Stage → Standing
  | .fresh => .outside
  | .waiting => .waiting
  | .inside => .inside

/-- The stages of a client are told apart by its standing. -/
theorem Stage.standing_injective : Function.Injective Stage.standing := by
  intro a b h
  cases a <;> cases b <;> first | rfl | contradiction

namespace Gate

variable {κ α : Type} [DecidableEq κ] {g : Gate κ} {name other : κ}

/-- The gate after some events. -/
def run (g : Gate κ) (events : List (GateEvent κ α)) : Gate κ :=
  events.foldl (fun g e => (g.step e).1) g

@[simp]
theorem run_nil (g : Gate κ) : g.run ([] : List (GateEvent κ α)) = g := rfl

@[simp]
theorem run_cons (g : Gate κ) (e : GateEvent κ α) (es : List (GateEvent κ α)) :
    g.run (e :: es) = (g.step e).1.run es := rfl

theorem run_append (g : Gate κ) (es fs : List (GateEvent κ α)) :
    g.run (es ++ fs) = (g.run es).run fs := List.foldl_append

theorem run_concat (g : Gate κ) (es : List (GateEvent κ α)) (e : GateEvent κ α) :
    g.run (es ++ [e]) = ((g.run es).step e).1 := by
  rw [run_append, run_cons, run_nil]

/-- The standing of a client; who is unknown is outside. -/
def standing (g : Gate κ) (name : κ) : Standing :=
  ((g.client? name).map (·.stage.standing)).getD .outside

/-! ### The clients after a change -/

@[simp]
theorem client?_forget_self (g : Gate κ) (name : κ) : (g.forget name).client? name = none :=
  Roster.lookup_filter_self g.clients name

theorem client?_forget_of_ne (g : Gate κ) (h : other ≠ name) :
    (g.forget name).client? other = g.client? other :=
  Roster.lookup_filter_of_ne g.clients h

@[simp]
theorem client?_put_self (g : Gate κ) (name : κ) (c : Client) :
    (g.put name c).client? name = some c := by
  simp [client?, put]

theorem client?_put_of_ne (g : Gate κ) (c : Client) (h : other ≠ name) :
    (g.put name c).client? other = g.client? other := by
  have hb : (other == name) = false := by simpa using h
  rw [client?, put, List.lookup_cons, hb]
  exact client?_forget_of_ne g h

/-- A client that is dropped is gone. -/
@[simp]
theorem client?_drop_self (g : Gate κ) (name : κ) : (g.drop name).client? name = none := by
  cases hc : g.client? name with
  | none => rwa [drop, hc]
  | some c =>
    obtain ⟨purpose, stage⟩ := c
    rw [drop, hc]
    cases stage <;> exact client?_forget_self g name

/-- A client that is dropped does not touch the others. -/
theorem client?_drop_of_ne (g : Gate κ) (h : other ≠ name) :
    (g.drop name).client? other = g.client? other := by
  cases hc : g.client? name with
  | none => rw [drop, hc]
  | some c =>
    obtain ⟨purpose, stage⟩ := c
    rw [drop, hc]
    cases stage <;> exact client?_forget_of_ne g h

theorem client?_attend_of_ne (g : Gate κ) (h : other ≠ name) (purpose : Purpose)
    (ending : Option α) : (g.attend name purpose ending).1.client? other = g.client? other := by
  cases purpose with
  | permit => rfl
  | work =>
    cases ending with
    | none => rfl
    | some value => exact client?_forget_of_ne g h

theorem client?_heed_of_ne (g : Gate κ) (h : other ≠ name) (purpose : Purpose)
    (ending : Option α) (told : Slot κ × Admission) :
    (g.heed name purpose ending told).1.client? other = g.client? other := by
  obtain ⟨slot, admission⟩ := told
  cases admission with
  | refused => exact client?_forget_of_ne g h
  | waiting => exact client?_put_of_ne g _ h
  | admitted => exact (client?_attend_of_ne _ h purpose ending).trans (client?_put_of_ne g _ h)

/-- **Frame.** A client that is polled does not touch the others. -/
theorem client?_poll_of_ne (g : Gate κ) (h : other ≠ name) (ending : Option α) :
    (g.poll name ending).1.client? other = g.client? other := by
  rw [poll]
  split
  · rfl
  · exact client?_heed_of_ne g h _ ending _
  · exact client?_heed_of_ne g h _ ending _
  · exact client?_attend_of_ne g h _ ending

theorem standing_forget (g : Gate κ) (name : κ) :
    (g.forget name).standing = Function.update g.standing name .outside := by
  funext other
  by_cases h : other = name
  · subst h
    simp [standing]
  · rw [Function.update_of_ne h, standing, client?_forget_of_ne g h, standing]

/-- A client that comes to a stage takes its standing, and the others keep theirs. -/
theorem standing_put (g : Gate κ) (name : κ) (c : Client) :
    (g.put name c).standing = Function.update g.standing name c.stage.standing := by
  funext other
  by_cases h : other = name
  · subst h
    simp [standing]
  · rw [Function.update_of_ne h, standing, client?_put_of_ne g c h, standing]

theorem standing_eq {c : Client} (h : g.client? name = some c) :
    g.standing name = c.stage.standing := by
  simp [standing, h]

/-- Whoever waits or is inside is a client that has come so far. -/
theorem client?_of_standing (stage : Stage) (h : g.standing name = stage.standing)
    (hs : stage ≠ .fresh) : ∃ purpose, g.client? name = some ⟨purpose, stage⟩ := by
  cases hc : g.client? name with
  | none => cases stage <;> simp_all [standing, Stage.standing]
  | some c =>
    rw [standing_eq hc] at h
    exact ⟨c.purpose, congrArg some (by rw [← Stage.standing_injective h])⟩

/-! ### Soundness -/

/-- A gate is **sound** when every client stands once on its list and the slot fits their
standing. -/
structure Sound (g : Gate κ) : Prop where
  names_nodup : (g.clients.map (·.1)).Nodup
  fits : g.slot.Fits g.standing

theorem sound_new : ({} : Gate κ).Sound := ⟨List.nodup_nil, Slot.fits_new⟩

namespace Sound

/-- A client that is gone leaves a sound gate if its slot fits. -/
theorem forget (h : g.Sound) {slot : Slot κ}
    (hs : slot.Fits (Function.update g.standing name .outside)) :
    { g.forget name with slot }.Sound :=
  ⟨Roster.nodup_filter h.names_nodup name, by
    have hs' := hs
    rw [← standing_forget] at hs'
    exact hs'⟩

/-- A client whose stage changes leaves a sound gate if its slot fits. -/
theorem put (h : g.Sound) {slot : Slot κ} {c : Client}
    (hs : slot.Fits (Function.update g.standing name c.stage.standing)) :
    { g.put name c with slot }.Sound :=
  ⟨Roster.nodup_cons_filter h.names_nodup name c, by
    have hs' := hs
    rw [← standing_put] at hs'
    exact hs'⟩

/-- Whatever a client was doing, the slot is sound without it. -/
theorem drop (h : g.Sound) (name : κ) : (g.drop name).Sound := by
  cases hc : g.client? name with
  | none => rwa [Gate.drop, hc]
  | some c =>
    obtain ⟨purpose, stage⟩ := c
    have hst := standing_eq hc
    cases stage with
    | fresh =>
      have hs : g.slot.Fits (Function.update g.standing name .outside) := by
        rw [show Standing.outside = g.standing name from hst.symm, Function.update_eq_self]
        exact h.fits
      rw [Gate.drop, hc]
      exact h.forget hs
    | waiting =>
      rw [Gate.drop, hc]
      exact h.forget (h.fits.leave hst)
    | inside =>
      rw [Gate.drop, hc]
      exact h.forget (h.fits.release hst)

/-- A client that is inside is polled. -/
theorem attend (h : g.Sound) (hst : g.standing name = .inside) (purpose : Purpose)
    (ending : Option α) : (g.attend name purpose ending).1.Sound := by
  cases purpose with
  | permit => exact h
  | work =>
    cases ending with
    | none => exact h
    | some value => exact h.forget (h.fits.release hst)

/-- A client hears whether it is let in, from a slot that knows already. -/
theorem heed (h : g.Sound) {slot : Slot κ} {admission : Admission}
    (hs : slot.Fits (Function.update g.standing name admission.standing)) (purpose : Purpose)
    (ending : Option α) : (g.heed name purpose ending (slot, admission)).1.Sound := by
  cases admission with
  | refused => exact h.forget hs
  | waiting => exact h.put hs
  | admitted =>
    have hin : { g.put name ⟨purpose, .inside⟩ with slot }.standing name = .inside :=
      standing_eq (client?_put_self g name _)
    exact (h.put hs).attend hin purpose ending

/-- A poll keeps a gate sound, whatever it comes to. -/
theorem poll (h : g.Sound) (name : κ) (ending : Option α) : (g.poll name ending).1.Sound := by
  cases hc : g.client? name with
  | none => rwa [Gate.poll, hc]
  | some c =>
    obtain ⟨purpose, stage⟩ := c
    have hst := standing_eq hc
    rw [Gate.poll, hc]
    cases stage with
    | fresh => exact h.heed (h.fits.ask hst) purpose ending
    | waiting => exact h.heed (h.fits.look hst) purpose ending
    | inside => exact h.attend hst purpose ending

/-- **One step.** Every event keeps a gate sound. -/
theorem step (h : g.Sound) (e : GateEvent κ α) : (g.step e).1.Sound := by
  cases e with
  | create name purpose =>
    have hd := h.drop name
    have hout : (g.drop name).standing name = .outside := by simp [standing]
    refine hd.put ?_
    rw [show ({ purpose } : Client).stage.standing = (g.drop name).standing name from hout.symm,
      Function.update_eq_self]
    exact hd.fits
  | poll name ending => exact h.poll name ending
  | drop name => exact h.drop name
  | close => exact ⟨h.names_nodup, h.fits.close⟩

/-- **Every run.** A gate stays sound. -/
theorem run (h : g.Sound) (es : List (GateEvent κ α)) : (g.run es).Sound := by
  induction es generalizing g with
  | nil => exact h
  | cons e es ih => exact ih (h.step e)

end Sound

end Gate

end SpeechService
