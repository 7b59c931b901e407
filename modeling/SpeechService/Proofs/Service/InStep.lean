import SpeechService.Proofs.Service.Tasks
import SpeechService.Service.Session

/-!
# Sessions in step

Two services may differ in something that does not decide how their tasks go on. If a relation
between services says so, and events keep it (`Session.KeepsStep`), then two sessions with such
services go on **in step**: the same tasks are woken, run and wait at the same times, and everybody
comes to the same end (`Session.InStep.serve`).
-/

namespace SpeechService

variable {B : Backend}

/-- Two phases of a task that are **alike**: they are the same, but requests may differ as long as
they were not looked at. -/
inductive Phase.Alike : Option (Phase B) → Option (Phase B) → Prop where
  | same (p : Option (Phase B)) : Alike p p
  | arrived (q r : Request) : Alike (some (.arrived q)) (some (.arrived r))

/-- Alike phases end alike. -/
theorem Phase.Alike.ending {p q : Option (Phase B)} (h : Alike p q) :
    q.bind Phase.ending? = p.bind Phase.ending? := by
  cases h <;> rfl

namespace Session

variable {R : Service B → Service B → Prop} {S S' : Session B} {s s' : Service B}

/-- A relation between services **keeps step**: related services have the same slots and alike
tasks, and they are related again after whatever a session does to both. -/
structure KeepsStep (R : Service B → Service B → Prop) : Prop where
  loading : ∀ s s', R s s' → s'.loading = s.loading
  gate : ∀ s s', R s s' → s'.gate = s.gate
  phases : ∀ s s', R s s' → ∀ t, Phase.Alike (s.phase? t) (s'.phase? t)
  advance : ∀ s s', R s s' → ∀ t, R (s.step (.advance t)) (s'.step (.advance t))
  answer : ∀ s s', R s s' → ∀ t, R (s.step (.answer t)) (s'.step (.answer t))
  close : ∀ s s', R s s' → R (s.step .close) (s'.step .close)
  elapse : ∀ s s', R s s' → ∀ time,
    R (s.step (.change (B.elapse s.world time))) (s'.step (.change (B.elapse s'.world time)))

/-- A relation that is kept also when clients come and when they have gone. -/
structure KeepsClients (R : Service B → Service B → Prop) : Prop extends KeepsStep R where
  request : ∀ s s', R s s' → ∀ t r, R (s.step (.request t r)) (s'.step (.request t r))
  summon : ∀ s s', R s s' → ∀ t, R (s.step (.summon t)) (s'.step (.summon t))
  forget : ∀ s s', R s s' → ∀ t, R (s.forget t) (s'.forget t)

/-- Two sessions are **in step** when they are the same but for their services, and these are
related. -/
structure InStep (R : Service B → Service B → Prop) (S S' : Session B) : Prop where
  service : R S.service S'.service
  eq : S' = { S with service := S'.service }

namespace InStep

theorem mk_iff : InStep R S S' ↔ ∃ s', R S.service s' ∧ S' = { S with service := s' } := by
  constructor
  · intro h
    exact ⟨S'.service, h.service, h.eq⟩
  · rintro ⟨s', hs', rfl⟩
    exact ⟨hs', rfl⟩

/-- An event that keeps the services related wakes the same tasks. -/
theorem perform (hk : KeepsStep R) (h : InStep R S S') {e e' : ServiceEvent B}
    (he : R (S.service.step e) (S'.service.step e')) :
    InStep R (S.perform e) (S'.perform e') := by
  refine ⟨he, ?_⟩
  rw [h.eq]
  simp only [Session.perform, hk.loading _ _ h.service, hk.gate _ _ h.service,
    hk.loading _ _ he, hk.gate _ _ he]

theorem advance (hk : KeepsStep R) (h : InStep R S S') (t : Nat) :
    InStep R (S.perform (.advance t)) (S'.perform (.advance t)) :=
  h.perform hk (hk.advance _ _ h.service t)

theorem answer (hk : KeepsStep R) (h : InStep R S S') (t : Nat) :
    InStep R (S.perform (.answer t)) (S'.perform (.answer t)) :=
  h.perform hk (hk.answer _ _ h.service t)

/-- What is arranged for later is due at the same time. -/
theorem arrange (h : InStep R S S') (delay : Nat) (alarm : Alarm) :
    InStep R { S with due := S.due ++ [(S.now + delay, alarm)] }
      { S' with due := S'.due ++ [(S'.now + delay, alarm)] } := by
  refine ⟨h.service, ?_⟩
  rw [h.eq]

/-- Time goes on in both. -/
theorem elapseTo (hk : KeepsStep R) (h : InStep R S S') (time : Nat) :
    InStep R (S.elapseTo time) (S'.elapseTo time) := by
  have hlater := h.perform hk (hk.elapse _ _ h.service time)
  refine ⟨hlater.service, ?_⟩
  rw [Session.elapseTo, hlater.eq]
  rfl

/-- A task that went on stays in its line in both sessions or in none. -/
private theorem heed {T T' : Session B} (h : InStep R S S') (hT : InStep R T T') (p : Phase B)
    {q q' : Option (Phase B)} :
    Phase.Alike q q' → InStep R
      (match p, q with
        | .awaitingModel _, some (.awaitingModel _) => S
        | .awaitingGate .., some (.awaitingGate ..) => S
        | _, _ => T)
      (match p, q' with
        | .awaitingModel _, some (.awaitingModel _) => S'
        | .awaitingGate .., some (.awaitingGate ..) => S'
        | _, _ => T') := by
  intro hq
  cases hq with
  | arrived q r => cases p <;> exact hT
  | same q => split <;> assumption

/-- A task runs until it has to wait. -/
theorem runTask (hk : KeepsStep R) (h : InStep R S S') (t n : Nat) :
    InStep R (runTask t n S) (runTask t n S') := by
  induction n generalizing S S' with
  | zero => exact h
  | succ n ih =>
    rw [Session.runTask, Session.runTask]
    have hp := hk.phases _ _ h.service t
    have hadvance := h.advance hk t
    have hq := hk.phases _ _ hadvance.service t
    generalize S.service.phase? t = p at hp
    generalize S'.service.phase? t = p' at hp
    cases hp with
    | arrived q r => exact ih hadvance
    | same p =>
      split
      · exact h
      · exact h
      · split
        · exact ih (h.answer hk t)
        · exact h.arrange _ (.answer t)
        · exact heed hadvance (ih hadvance) _ hq

/-- **Settling.** Two sessions in step settle alike. -/
theorem settle (hk : KeepsStep R) (h : InStep R S S') (bound : Nat) :
    InStep R (settle bound S) (settle bound S') := by
  induction bound generalizing S S' with
  | zero => exact h
  | succ bound ih =>
    obtain ⟨s', hs', rfl⟩ := mk_iff.mp h
    rw [Session.settle, Session.settle]
    dsimp only
    split
    · next t rest _ =>
      have hrest : InStep R { S with ready := rest } { S with service := s', ready := rest } :=
        ⟨hs', rfl⟩
      exact ih (hrest.runTask hk t maxSteps)
    · split
      · exact h
      · next time alarm others _ =>
        have hlater : InStep R (({ S with due := others } : Session B).elapseTo time)
            (({ S with service := s', due := others } : Session B).elapseTo time) := by
          have hothers : InStep R { S with due := others }
              { S with service := s', due := others } := ⟨hs', rfl⟩
          exact hothers.elapseTo hk time
        refine ih ?_
        cases alarm with
        | answer t => exact (hlater.answer hk t).runTask hk t maxSteps
        | close => exact hlater.perform hk (hk.close _ _ hlater.service)

/-- A client comes in, with requests that may differ. -/
theorem start_speak (hk : KeepsStep R) (h : InStep R S S') {q r : Request}
    (hqr : R (S.service.step (.request S.next q)) (S'.service.step (.request S'.next r))) :
    InStep R (S.start (.speak q)) (S'.start (.speak r)) := by
  have hcome := h.perform hk hqr
  refine ⟨hcome.service, ?_⟩
  obtain ⟨s', -, rfl⟩ := mk_iff.mp h
  exact congrArg (fun T : Session B => { T with ready := S.ready ++ [S.next], next := S.next + 1 })
    hcome.eq

/-- A client comes in. -/
theorem start (hk : KeepsClients R) (h : InStep R S S') (order : Order) :
    InStep R (S.start order) (S'.start order) := by
  obtain ⟨s', hs', rfl⟩ := mk_iff.mp h
  cases order with
  | speak r => exact h.start_speak hk.toKeepsStep (hk.request _ _ hs' S.next r)
  | load =>
    have hcome := h.perform hk.toKeepsStep (hk.summon _ _ hs' S.next)
    exact ⟨hcome.service, congrArg
      (fun T : Session B => { T with ready := S.ready ++ [S.next], next := S.next + 1 }) hcome.eq⟩

theorem foldl_start (hk : KeepsClients R) (h : InStep R S S') (orders : List Order) :
    InStep R (orders.foldl Session.start S) (orders.foldl Session.start S') := by
  induction orders generalizing S S' with
  | nil => exact h
  | cons order orders ih => exact ih (h.start hk order)

/-- The tasks of clients that have gone are forgotten. -/
theorem forget (hk : KeepsClients R) (h : InStep R S S') (tasks : List Nat) :
    InStep R { S with service := tasks.foldl Service.forget S.service }
      { S' with service := tasks.foldl Service.forget S'.service } := by
  obtain ⟨s', hs', rfl⟩ := mk_iff.mp h
  refine ⟨?_, rfl⟩
  clear h
  generalize S.service = s at hs'
  induction tasks generalizing s s' with
  | nil => exact hs'
  | cons t tasks ih => exact ih _ _ (hk.forget _ _ hs' t)

/-- Tasks come to the same end. -/
theorem endings (hk : KeepsStep R) (h : InStep R S S') (tasks : List Nat) :
    (tasks.map fun t => (S'.service.phase? t).bind Phase.ending?) =
      tasks.map fun t => (S.service.phase? t).bind Phase.ending? :=
  List.map_congr_left fun t _ => (hk.phases _ _ h.service t).ending

/-- **Serving.** Whatever clients come at once, and whenever the gate is closed, everybody comes to
the same end in both sessions. -/
theorem serve (hk : KeepsClients R) (h : InStep R S S') (orders : List Order)
    (closeAfter : Option Nat) :
    InStep R (S.serve orders closeAfter).1 (S'.serve orders closeAfter).1 ∧
      (S'.serve orders closeAfter).2 = (S.serve orders closeAfter).2 := by
  obtain ⟨s', hs', rfl⟩ := mk_iff.mp h
  -- Everything but the gate's closing is the same in all cases.
  have hrest {T T' : Session B} (hT : InStep R T T') :
      let tasks := (List.range orders.length).map (S.next + ·)
      let after := Session.settle (turns orders.length) (orders.foldl Session.start T)
      let after' := Session.settle (turns orders.length) (orders.foldl Session.start T')
      InStep R { after with service := tasks.foldl Service.forget after.service }
          { after' with service := tasks.foldl Service.forget after'.service } ∧
        (tasks.map fun t => (after'.service.phase? t).bind Phase.ending?) =
          tasks.map fun t => (after.service.phase? t).bind Phase.ending? := by
    have hsettled := (hT.foldl_start hk orders).settle hk.toKeepsStep (turns orders.length)
    exact ⟨hsettled.forget hk _, hsettled.endings hk.toKeepsStep _⟩
  rcases closeAfter with _ | _ | delay
  · exact hrest h
  · exact hrest (h.perform hk.toKeepsStep (hk.close _ _ hs'))
  · exact hrest (h.arrange _ .close)

end InStep

end Session

end SpeechService
