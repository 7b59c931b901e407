import SpeechService.Http.Exchange
import SpeechService.Proofs.Service.Alone
import SpeechService.Proofs.Service.Sessions

/-!
# Idle sessions

A session is **idle** when nothing is going on in it. A request that comes in then has the service
to itself: it is answered by the end to which its task comes alone, and the session is idle again
(`Session.Idle.speak`).
-/

namespace SpeechService

variable {B : Backend}

namespace Service

variable {s : Service B} {t u : Nat}

/-- Events about a task leave the others alone. -/
theorem phase?_run_of_ne {es : List (ServiceEvent B)} (hes : ∀ e ∈ es, e.task? = some t)
    (hu : u ≠ t) : (s.run es).phase? u = s.phase? u := by
  induction es generalizing s with
  | nil => rfl
  | cons e es ih =>
    obtain ⟨he, hrest⟩ := List.forall_mem_cons.mp hes
    have hstep : e.task? ≠ some u := by simpa [he] using Ne.symm hu
    rw [run_cons, ih hrest, phase?_step_of_ne hstep]

end Service

namespace Session

variable {S : Session B} {n : Nat} {x : Ending B} {after : Service B}

/-- A session is **idle** when nothing is ready or due, and all tasks have ended. -/
structure Idle (S : Session B) : Prop where
  ready : S.ready = []
  due : S.due = []
  ended : ∀ t p, S.service.phase? t = some p → ∃ x, p = .ended x
  fresh : ∀ t, S.next ≤ t → S.service.phase? t = none

namespace Idle

theorem alone (h : S.Idle) (hl : S.service.LoadSound) (hg : S.service.GateSound) (t : Nat) :
    S.service.Alone t :=
  ⟨hl, hg, fun u _ p hp => h.ended u p hp⟩

/-- A request comes in. -/
theorem step_request (h : S.Idle) (r : Request) :
    S.service.step (.request S.next r) = S.service.enter S.next (.arrived r) := by
  rw [Service.step, h.fresh S.next (Nat.le_refl _)]
  rfl

theorem start_eq (h : S.Idle) (hl : S.service.LoadSound) (hg : S.service.GateSound)
    (r : Request) :
    S.start (.speak r) =
      ⟨S.service.enter S.next (.arrived r), S.now, [S.next], [], S.next + 1⟩ := by
  have hnone := h.fresh S.next (Nat.le_refl _)
  have hperform := perform_eq (h.alone hl hg S.next) (Service.not_inLine_of_none hnone)
    (e := .request S.next r) (by simp [ServiceEvent.task?])
    (h.step_request r ▸ Service.not_inLine (Service.phase?_enter_self ..) rfl)
  rw [start]
  simp only [hperform, h.step_request, h.ready, h.due, List.nil_append]

/-- **Alone in a session.** A request that finishes on its own is answered by its end. -/
theorem serve (h : S.Idle) (hl : S.service.LoadSound) (hg : S.service.GateSound)
    (hsteady : ∀ w time, B.elapse w time = w) {r : Request}
    (hf : Finishes S.next x after n (S.service.enter S.next (.arrived r))) (hn : n ≤ maxSteps) :
    ∃ later, S.serve [.speak r] none =
      (⟨after.forget S.next, later, [], [], S.next + 1⟩, [some x]) := by
  have ha : (S.service.enter S.next (.arrived r)).Alone S.next :=
    h.step_request r ▸ (h.alone hl hg S.next).step (by simp [ServiceEvent.task?])
  have hturns : n < turns 1 - 1 := by
    have hmax : maxSteps = 16 := rfl
    have hbound : turns 1 - 1 = 31 := rfl
    omega
  obtain ⟨later, hsettle⟩ := hf.settle_runTask hsteady ha hn hn hturns S.now (S.next + 1)
  refine ⟨later, ?_⟩
  have hall : settle (turns 1) (S.start (.speak r)) = ⟨after, later, [], [], S.next + 1⟩ := by
    rw [h.start_eq hl hg]
    exact hsettle
  rw [serve_none]
  simp only [List.length_singleton, List.foldl_cons, List.foldl_nil, hall, List.range_one,
    List.map_cons, List.map_nil, Nat.add_zero, hf.phase?_eq, Option.bind_some, Phase.ending?]

/-- The events by which a request that finishes on its own is served. -/
theorem exists_run (h : S.Idle) {r : Request}
    (hf : Finishes S.next x after n (S.service.enter S.next (.arrived r))) :
    ∃ es : List (ServiceEvent B), after.forget S.next = S.service.run es ∧
      ∀ e ∈ es, e.task? = some S.next := by
  obtain ⟨es, hrun, hes⟩ := hf.exists_run
  refine ⟨.request S.next r :: es ++ [.cancel S.next], ?_, ?_⟩
  · rw [List.cons_append, Service.run_cons, Service.run_append, h.step_request, ← hrun]
    exact (Service.step_cancel hf.phase?_eq).symm
  · intro e he
    rcases List.mem_append.mp he with he | he
    · rcases List.mem_cons.mp he with rfl | he
      · rfl
      · exact hes e he
    · rw [List.mem_singleton.mp he]
      rfl

/-- **Answering.** A request that finishes on its own is answered by its end. -/
theorem speak (h : S.Idle) (hl : S.service.LoadSound) (hg : S.service.GateSound)
    (hsteady : ∀ w time, B.elapse w time = w) (encoder : Encoder) {r : Request}
    (hf : Finishes S.next x after n (S.service.enter S.next (.arrived r))) (hn : n ≤ maxSteps) :
    ∃ later, S.speak encoder r =
      (⟨after.forget S.next, later, [], [], S.next + 1⟩, Http.ofEnding encoder x) := by
  obtain ⟨later, hserve⟩ := h.serve hl hg hsteady hf hn
  exact ⟨later, by rw [Session.speak, hserve]⟩

/-- The session is idle again when the request is served. -/
theorem idle_again (h : S.Idle) {r : Request}
    (hf : Finishes S.next x after n (S.service.enter S.next (.arrived r))) (later : Nat) :
    (⟨after.forget S.next, later, [], [], S.next + 1⟩ : Session B).Idle := by
  obtain ⟨es, hrun, hes⟩ := h.exists_run hf
  have hphase (u : Nat) (hu : u ≠ S.next) :
      (after.forget S.next).phase? u = S.service.phase? u := by
    rw [hrun, Service.phase?_run_of_ne hes hu]
  refine ⟨rfl, rfl, fun u p hp => ?_, fun u hu => ?_⟩
  · by_cases hun : u = S.next
    · subst hun
      simp at hp
    · exact h.ended u p ((hphase u hun).symm.trans hp)
  · have hle : S.next + 1 ≤ u := hu
    exact (hphase u (by omega)).trans (h.fresh u (by omega))

end Idle

end Session

end SpeechService
