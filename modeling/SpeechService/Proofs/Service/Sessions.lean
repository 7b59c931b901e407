import SpeechService.Proofs.Service.Tasks
import SpeechService.Service.Session

/-!
# Sessions keep what events keep

A session does nothing to its service but by events. So a property of services that is kept by the
steps of tasks and by the passing of time is kept while a session settles, as long as nobody has
arranged for the gate to be closed (`Session.Calm.settle`).
-/

namespace SpeechService

variable {B : Backend}

namespace Session

/-- Serving clients while the gate stays open: their tasks start, and the session settles. -/
theorem serve_none (S : Session B) (orders : List Order) :
    S.serve orders none =
      let after := settle (turns orders.length) (orders.foldl start S)
      let tasks := (List.range orders.length).map (S.next + ·)
      ({ after with service := tasks.foldl Service.forget after.service },
        tasks.map fun task => (after.service.phase? task).bind Phase.ending?) := rfl

/-- A property of services is **kept** by the steps of tasks and by the passing of time. -/
structure Keeps (P : Service B → Prop) : Prop where
  advance : ∀ s t, P s → P (s.step (.advance t))
  answer : ∀ s t, P s → P (s.step (.answer t))
  elapse : ∀ s time, P s → P (s.step (.change (B.elapse s.world time)))

/-- A session is **calm** when its service has the property, and the gate is not to be closed. -/
structure Calm (P : Service B → Prop) (S : Session B) : Prop where
  service : P S.service
  due : ∀ a ∈ S.due, a.2 ≠ .close

variable {P : Service B → Prop} {S : Session B}

/-- The earliest alarm is one of those that are due, and so are the others. -/
theorem mem_of_earliest? {due others : List (Nat × Alarm)} {a : Nat × Alarm}
    (h : earliest? due = some (a, others)) : a ∈ due ∧ ∀ b ∈ others, b ∈ due := by
  induction due generalizing a others with
  | nil => cases h
  | cons c rest ih =>
    rw [earliest?] at h
    split at h
    · obtain ⟨rfl, rfl⟩ := Prod.mk.inj (Option.some.inj h)
      exact ⟨List.mem_cons_self, nofun⟩
    · next b later hearliest =>
      obtain ⟨hb, hlater⟩ := ih hearliest
      split at h
      · obtain ⟨rfl, rfl⟩ := Prod.mk.inj (Option.some.inj h)
        refine ⟨List.mem_cons_of_mem c hb, fun x hx => ?_⟩
        rcases List.mem_cons.mp hx with rfl | hx
        · exact List.mem_cons_self
        · exact List.mem_cons_of_mem c (hlater x hx)
      · obtain ⟨rfl, rfl⟩ := Prod.mk.inj (Option.some.inj h)
        exact ⟨List.mem_cons_self, fun x hx => List.mem_cons_of_mem _ hx⟩

namespace Calm

theorem advance (hk : Keeps P) (h : S.Calm P) (t : Nat) : (S.perform (.advance t)).Calm P :=
  ⟨hk.advance S.service t h.service, h.due⟩

theorem answer (hk : Keeps P) (h : S.Calm P) (t : Nat) : (S.perform (.answer t)).Calm P :=
  ⟨hk.answer S.service t h.service, h.due⟩

theorem runTask (hk : Keeps P) (h : S.Calm P) (t n : Nat) : (runTask t n S).Calm P := by
  induction n generalizing S with
  | zero => exact h
  | succ n ih =>
    rw [Session.runTask]
    split
    · exact h
    · exact h
    · split
      · exact ih (h.answer hk t)
      · refine ⟨h.service, fun a ha => ?_⟩
        rcases List.mem_append.mp ha with ha | ha
        · exact h.due a ha
        · rw [List.mem_singleton.mp ha]
          simp
      · dsimp only
        split
        · exact h.advance hk t
        · exact h.advance hk t
        · exact ih (h.advance hk t)

/-- **Settling.** What is kept by every event is kept while a session settles. -/
theorem settle (hk : Keeps P) (h : S.Calm P) (bound : Nat) : (settle bound S).Calm P := by
  induction bound generalizing S with
  | zero => exact h
  | succ bound ih =>
    rw [Session.settle]
    split
    · next t rest _ =>
      have hrest : ({ S with ready := rest } : Session B).Calm P := ⟨h.service, h.due⟩
      exact ih (hrest.runTask hk t maxSteps)
    · split
      · exact h
      · next time alarm others hearliest =>
        obtain ⟨hmem, hothers⟩ := mem_of_earliest? hearliest
        have hlater : (({ S with due := others } : Session B).elapseTo time).Calm P :=
          ⟨hk.elapse S.service time h.service, fun a ha => h.due a (hothers a ha)⟩
        refine ih ?_
        cases alarm with
        | answer t => exact (hlater.answer hk t).runTask hk t maxSteps
        | close => exact absurd rfl (h.due _ hmem)

end Calm

end Session

end SpeechService
