import SpeechService.Proofs.Service.Generating
import SpeechService.Proofs.Service.Loading
import SpeechService.Service.Session

/-!
# A task on its own

A task is **alone** when all other tasks have ended. Nobody stands in line then, so nothing that it
does wakes anybody, and a session does nothing but let it run: `Session.serve_alone` reads off the
end of a task from the steps that it takes.
-/

namespace SpeechService

variable {B : Backend}

/-- After a change that hands the slot to nobody and dissolves no line, nobody is woken. -/
theorem Slot.woken_eq_nil {before after : Slot Nat} (hl : before.line = [])
    (ht : ∀ c, after.tenure ≠ .handed c) : before.woken after = [] := by
  rw [woken, hl]
  cases h : after.tenure with
  | handed c => exact absurd h (ht c)
  | _ => simp

@[simp]
theorem Slot.woken_self (slot : Slot Nat) : slot.woken slot = [] := by
  rw [woken]
  cases slot.tenure <;> simp

/-- Where nobody waits, nobody is in line, and the slot is in nobody's hand. -/
theorem Slot.Fits.nobody_waits {slot : Slot Nat} {standing : Nat → Standing}
    (h : slot.Fits standing) (hw : ∀ c, standing c ≠ .waiting) :
    slot.line = [] ∧ ∀ c, slot.tenure ≠ .handed c :=
  ⟨List.eq_nil_iff_forall_not_mem.mpr fun c hc => hw c (h.line_waits c hc),
    fun c hc => hw c (h.handed c hc).1⟩

/-- Where everybody is outside, the slot is free. -/
theorem Slot.Fits.free_of_outside {slot : Slot Nat} {standing : Nat → Standing}
    (h : slot.Fits standing) (ho : ∀ c, standing c = .outside) : slot.tenure = .free := by
  cases ht : slot.tenure with
  | free => rfl
  | owned c => exact absurd ((h.inside_iff c).mpr ht) (by simp [ho])
  | handed c => exact absurd (h.handed c ht).1 (by simp [ho])

namespace Service

variable {s : Service B} {t u : Nat} {p : Phase B} {e : ServiceEvent B}

/-- The task stands in a line. -/
def InLine (s : Service B) (t : Nat) : Prop :=
  s.loadingStanding t = .waiting ∨ s.gateStanding t = .waiting

theorem not_inLine (hp : s.phase? t = some p) (hl : p.standsInLine = false) : ¬s.InLine t := by
  rw [InLine, loadingStanding_eq hp, gateStanding_eq hp]
  cases p <;> simp_all [Phase.loadingStanding, Phase.gateStanding, Phase.standsInLine]

theorem not_inLine_of_none (hp : s.phase? t = none) : ¬s.InLine t := by
  simp [InLine, loadingStanding, gateStanding, hp]

/-- A task is **alone** in a service when all others have ended. -/
structure Alone (s : Service B) (t : Nat) : Prop where
  load : s.LoadSound
  gate : s.GateSound
  others : ∀ u ≠ t, ∀ p, s.phase? u = some p → ∃ x, p = .ended x

namespace Alone

theorem step (h : s.Alone t) (he : ∀ u, e.task? = some u → u = t) : (s.step e).Alone t where
  load := h.load.step e
  gate := h.gate.step e
  others u hu p hp := by
    refine h.others u hu p ?_
    rwa [phase?_step_of_ne] at hp
    exact fun heu => hu (he u heu)

/-- How the tasks stand to the slots depends on the one task alone. -/
theorem standing_of (h : s.Alone t) (u : Nat) :
    (s.loadingStanding u = .outside ∨ s.loadingStanding u = s.loadingStanding t) ∧
      (s.gateStanding u = .outside ∨ s.gateStanding u = s.gateStanding t) := by
  by_cases hut : u = t
  · exact hut ▸ ⟨.inr rfl, .inr rfl⟩
  · cases hu : s.phase? u with
    | none => simp [loadingStanding, gateStanding, hu]
    | some q =>
      obtain ⟨x, rfl⟩ := h.others u hut q hu
      rw [loadingStanding_eq hu, gateStanding_eq hu]
      exact ⟨.inl rfl, .inl rfl⟩

theorem loading_free (h : s.Alone t) (ho : s.loadingStanding t = .outside) :
    s.loading.tenure = .free :=
  h.load.fits.free_of_outside fun u => by simpa [ho] using (h.standing_of u).1

theorem gate_free (h : s.Alone t) (ho : s.gateStanding t = .outside) : s.gate.tenure = .free :=
  Slot.Fits.free_of_outside h.gate fun u => by simpa [ho] using (h.standing_of u).2

/-- A task that stands in no line leaves both slots without a line. -/
theorem nobody_waits (h : s.Alone t) (hl : ¬s.InLine t) :
    (s.loading.line = [] ∧ ∀ c, s.loading.tenure ≠ .handed c) ∧
      s.gate.line = [] ∧ ∀ c, s.gate.tenure ≠ .handed c := by
  obtain ⟨hload, hgate⟩ := not_or.mp hl
  refine ⟨h.load.fits.nobody_waits fun u hw => ?_, Slot.Fits.nobody_waits h.gate fun u hw => ?_⟩
  · obtain ho | ho := (h.standing_of u).1
    · simp [hw] at ho
    · exact hload (ho.symm.trans hw)
  · obtain ho | ho := (h.standing_of u).2
    · simp [hw] at ho
    · exact hgate (ho.symm.trans hw)

end Alone

end Service

namespace Session

variable {S : Session B} {t n : Nat} {p q : Phase B} {e : ServiceEvent B}

/-- What a task does on its own wakes nobody. -/
theorem perform_eq (h : S.service.Alone t) (hl : ¬S.service.InLine t)
    (he : ∀ u, e.task? = some u → u = t) (hl' : ¬(S.service.step e).InLine t) :
    S.perform e = { S with service := S.service.step e } := by
  obtain ⟨⟨hload, -⟩, hgate, -⟩ := h.nobody_waits hl
  obtain ⟨⟨-, hload'⟩, -, hgate'⟩ := (h.step he).nobody_waits hl'
  simp [perform, Slot.woken_eq_nil hload hload', Slot.woken_eq_nil hgate hgate']

/-- A task goes on by itself. -/
theorem runTask_advance (h : S.service.Alone t) (hp : S.service.phase? t = some p)
    (hl : p.standsInLine = false) (hd : p.delay? = none) (hend : p.ending? = none)
    (hq : (S.service.step (.advance t)).phase? t = some q) (hlq : q.standsInLine = false) :
    runTask t (n + 1) S = runTask t n { S with service := S.service.step (.advance t) } := by
  have hperform := perform_eq h (Service.not_inLine hp hl) (e := .advance t)
    (by simp [ServiceEvent.task?]) (Service.not_inLine hq hlq)
  rw [runTask, hp]
  cases p <;> simp_all [Phase.ending?, Phase.delay?, Phase.standsInLine]

/-- A call comes back at once. -/
theorem runTask_answer (h : S.service.Alone t) (hp : S.service.phase? t = some p)
    (hl : p.standsInLine = false) (hd : p.delay? = some 0)
    (hq : (S.service.step (.answer t)).phase? t = some q) (hlq : q.standsInLine = false) :
    runTask t (n + 1) S = runTask t n { S with service := S.service.step (.answer t) } := by
  have hperform := perform_eq h (Service.not_inLine hp hl) (e := .answer t)
    (by simp [ServiceEvent.task?]) (Service.not_inLine hq hlq)
  rw [runTask, hp]
  cases p <;> simp_all [Phase.delay?]

/-- A call takes its time. -/
theorem runTask_wait {delay : Nat} (hp : S.service.phase? t = some p)
    (hd : p.delay? = some (delay + 1)) :
    runTask t (n + 1) S = { S with due := S.due ++ [(S.now + (delay + 1), .answer t)] } := by
  rw [runTask, hp]
  cases p <;> simp_all [Phase.delay?]

/-- Time goes on without anything to see for a backend that does not mind. -/
theorem elapseTo_eq (hsteady : ∀ w time, B.elapse w time = w) (S : Session B) (time : Nat) :
    S.elapseTo time = { S with now := time } := by
  have hstep : S.service.step (.change (B.elapse S.service.world time)) = S.service := by
    rw [hsteady]
    rfl
  simp [elapseTo, perform, hstep]

/-- A task that has ended stays as it is. -/
theorem runTask_ended {x : Ending B} (hp : S.service.phase? t = some (.ended x)) :
    runTask t n S = S := by
  cases n with
  | zero => rfl
  | succ n => rw [runTask, hp]

/-- Where nothing is ready or due, nothing happens. -/
theorem settle_of_nothing (hr : S.ready = []) (hd : S.due = []) : settle n S = S := by
  cases n with
  | zero => rfl
  | succ n => rw [settle, hr, hd]; rfl

/-! ### Running to the end -/

/-- On its own, a task **finishes** within some steps: it comes to an end `x` and leaves the service
`after`. It never stands in a line, and its calls may take their time. -/
inductive Finishes (t : Nat) (x : Ending B) (after : Service B) : Nat → Service B → Prop where
  | ended (n : Nat) (hp : after.phase? t = some (.ended x)) : Finishes t x after n after
  | advance {n s p q} (hp : s.phase? t = some p) (hl : p.standsInLine = false)
    (hd : p.delay? = none) (hend : p.ending? = none)
    (hq : (s.step (.advance t)).phase? t = some q) (hlq : q.standsInLine = false)
    (h : Finishes t x after n (s.step (.advance t))) : Finishes t x after (n + 1) s
  | answer {n s p q} (hp : s.phase? t = some p) (hl : p.standsInLine = false)
    (hd : p.delay?.isSome = true) (hq : (s.step (.answer t)).phase? t = some q)
    (hlq : q.standsInLine = false) (h : Finishes t x after n (s.step (.answer t))) :
    Finishes t x after (n + 1) s

namespace Finishes

variable {x : Ending B} {s after : Service B}

theorem mono {k : Nat} (h : Finishes t x after n s) (hk : n ≤ k) : Finishes t x after k s := by
  induction h generalizing k with
  | ended n hp => exact .ended k hp
  | advance hp hl hd hend hq hlq _ ih =>
    obtain ⟨j, rfl⟩ := Nat.exists_eq_add_of_le' (Nat.le_of_add_left_le hk)
    exact .advance hp hl hd hend hq hlq (ih (by omega))
  | answer hp hl hd hq hlq _ ih =>
    obtain ⟨j, rfl⟩ := Nat.exists_eq_add_of_le' (Nat.le_of_add_left_le hk)
    exact .answer hp hl hd hq hlq (ih (by omega))

theorem phase?_eq (h : Finishes t x after n s) : after.phase? t = some (.ended x) := by
  induction h with
  | ended n hp => exact hp
  | advance _ _ _ _ _ _ _ ih => exact ih
  | answer _ _ _ _ _ _ ih => exact ih

/-- All that happens on the way are events. -/
theorem exists_run (h : Finishes t x after n s) :
    ∃ es : List (ServiceEvent B), after = s.run es ∧ ∀ e ∈ es, e.task? = some t := by
  induction h with
  | ended n hp => exact ⟨[], rfl, by simp⟩
  | advance _ _ _ _ _ _ _ ih =>
    obtain ⟨es, hrun, hes⟩ := ih
    exact ⟨.advance t :: es, hrun, List.forall_mem_cons.mpr ⟨rfl, hes⟩⟩
  | answer _ _ _ _ _ _ ih =>
    obtain ⟨es, hrun, hes⟩ := ih
    exact ⟨.answer t :: es, hrun, List.forall_mem_cons.mpr ⟨rfl, hes⟩⟩

/-- **Settling.** A session lets a task that is alone run to its end, if it has enough turns. The
world of the backend does not mind that time goes on. -/
theorem settle_runTask (hsteady : ∀ w time, B.elapse w time = w) (h : Finishes t x after n s)
    (ha : s.Alone t) {m b : Nat} (hn : n ≤ maxSteps) (hm : n ≤ m) (hb : n < b) (now next : Nat) :
    ∃ later, settle b (runTask t m ⟨s, now, [], [], next⟩) = ⟨after, later, [], [], next⟩ := by
  induction h generalizing m b now with
  | ended n hp => exact ⟨now, by rw [runTask_ended hp, settle_of_nothing rfl rfl]⟩
  | advance hp hl hd hend hq hlq _ ih =>
    obtain ⟨k, rfl⟩ := Nat.exists_eq_add_of_le' (Nat.le_of_add_left_le hm)
    rw [runTask_advance ha hp hl hd hend hq hlq]
    exact ih (ha.step (by simp [ServiceEvent.task?])) (by omega) (by omega) (by omega) now
  | @answer n s p q hp hl hd hq hlq _ ih =>
    have hnext := ha.step (e := .answer t) (by simp [ServiceEvent.task?])
    obtain ⟨k, rfl⟩ := Nat.exists_eq_add_of_le' (Nat.le_of_add_left_le hm)
    obtain ⟨delay, hdelay⟩ := Option.isSome_iff_exists.mp hd
    -- A call that takes no time comes back in the same turn; any other one takes a turn more.
    cases delay with
    | zero =>
      rw [runTask_answer ha hp hl hdelay hq hlq]
      exact ih hnext (by omega) (by omega) (by omega) now
    | succ delay =>
      obtain ⟨c, rfl⟩ := Nat.exists_eq_add_of_lt (Nat.lt_of_le_of_lt (Nat.zero_le _) hb)
      rw [runTask_wait hp hdelay, Nat.zero_add]
      have hperform := perform_eq (S := ⟨s, now + (delay + 1), [], [], next⟩) ha
        (Service.not_inLine hp hl) (e := .answer t) (by simp [ServiceEvent.task?])
        (Service.not_inLine hq hlq)
      show ∃ later, settle c ((elapseTo ⟨s, now, [], [], next⟩ (now + (delay + 1))).ring
        (.answer t)) = _
      rw [elapseTo_eq hsteady, ring, hperform]
      exact ih hnext (by omega) (by omega) (by omega) (now + (delay + 1))

end Finishes

end Session

end SpeechService
