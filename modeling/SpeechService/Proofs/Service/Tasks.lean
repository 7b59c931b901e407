import SpeechService.Service.Step
import SpeechService.Proofs.Slot.Roster

/-!
# The tasks of a service

What one event does to the list of tasks. An event is about one task at most; that task enters a
phase, is forgotten or stays as it is (`Service.moved_step`), and all the others are left alone
(`Service.phase?_step_of_ne`). Events that follow one another make a run, and what happens in a run
is told by its **moments**: a service and the event that happens to it.
-/

namespace SpeechService

variable {B : Backend} {s : Service B} {t u : Nat} {p : Phase B}

/-- The task that an event is about. -/
def ServiceEvent.task? : ServiceEvent B → Option Nat
  | .request t _ | .summon t | .advance t | .answer t | .cancel t => some t
  | .close | .change _ => none

namespace Service

/-! ### Entering a phase and being forgotten -/

@[simp]
theorem phase?_forget_self (s : Service B) (t : Nat) : (s.forget t).phase? t = none :=
  Roster.lookup_filter_self s.tasks t

theorem phase?_forget_of_ne (s : Service B) (h : u ≠ t) :
    (s.forget t).phase? u = s.phase? u :=
  Roster.lookup_filter_of_ne s.tasks h

@[simp]
theorem phase?_enter_self (s : Service B) (t : Nat) (p : Phase B) :
    (s.enter t p).phase? t = some p := by
  simp [phase?, enter]

/-- A task that enters a phase does not touch the others. -/
theorem phase?_enter_of_ne (s : Service B) (p : Phase B) (h : u ≠ t) :
    (s.enter t p).phase? u = s.phase? u := by
  have hb : (u == t) = false := by simpa using h
  rw [phase?, enter, List.lookup_cons, hb]
  exact phase?_forget_of_ne s h

/-- Only the last phase counts. -/
theorem enter_enter (s : Service B) (t : Nat) (p q : Phase B) :
    (s.enter t p).enter t q = s.enter t q := by
  simp [enter, forget]

/-! ### The step of a task -/

/-- A task goes on from the phase in which it is. -/
theorem step_advance (h : s.phase? t = some p) : s.step (.advance t) = s.advance t p := by
  rw [step, withTask, h]

theorem step_answer (h : s.phase? t = some p) : s.step (.answer t) = s.answer t p := by
  rw [step, withTask, h]

theorem step_cancel (h : s.phase? t = some p) : s.step (.cancel t) = s.abandon t p := by
  rw [step, withTask, h]

/-- An event of a task that does not drop it lets the task go on, brings back its call, or does
nothing. -/
theorem step_of_task {e : ServiceEvent B} (h : s.phase? t = some p) (he : e.task? = some t)
    (hne : e ≠ .cancel t) :
    s.step e = s ∨ (e = .advance t ∧ s.step e = s.advance t p)
      ∨ (e = .answer t ∧ s.step e = s.answer t p) := by
  have hsome : (s.phase? t).isSome = true := by rw [h]; rfl
  cases e with
  | request u r =>
    cases he
    exact .inl (if_pos hsome)
  | summon u =>
    cases he
    exact .inl (if_pos hsome)
  | advance u =>
    cases he
    exact .inr (.inl ⟨rfl, step_advance h⟩)
  | answer u =>
    cases he
    exact .inr (.inr ⟨rfl, step_answer h⟩)
  | cancel u =>
    cases he
    exact absurd rfl hne
  | close => simp [ServiceEvent.task?] at he
  | change w => simp [ServiceEvent.task?] at he

/-- A request that comes in has a task. -/
theorem isSome_phase?_request (s : Service B) (t : Nat) (r : Request) :
    ((s.step (.request t r)).phase? t).isSome = true := by
  rw [step]
  split
  · assumption
  · rw [phase?_enter_self]
    rfl

/-! ### All tasks -/

/-- A service whose tasks are those of another but for one that **moved**: it entered a phase, was
forgotten or stayed as it was. -/
def Moved (s : Service B) (t : Nat) (after : Service B) : Prop :=
  after.settings = s.settings ∧
    (after.tasks = s.tasks ∨ after.tasks = (s.forget t).tasks ∨
      ∃ p, after.tasks = (t, p) :: (s.forget t).tasks)

theorem moved_self (s : Service B) (t : Nat) : s.Moved t s := ⟨rfl, .inl rfl⟩

private theorem moved_enter {s' : Service B} (hs : s'.settings = s.settings)
    (ht : s'.tasks = s.tasks) (t : Nat) (p : Phase B) : s.Moved t (s'.enter t p) :=
  ⟨hs, .inr (.inr ⟨p, by rw [enter, forget, forget, ht]⟩)⟩

private theorem moved_forget {s' : Service B} (hs : s'.settings = s.settings)
    (ht : s'.tasks = s.tasks) (t : Nat) : s.Moved t (s'.forget t) :=
  ⟨hs, .inr (.inl (by rw [forget, forget, ht]))⟩

/-- Looking at a request, a task moves on its own. -/
private theorem moved_accept (s : Service B) (t : Nat) (r : Request) :
    s.Moved t (s.accept t r) := by
  rw [accept]
  split <;> exact moved_enter rfl rfl t _

private theorem moved_heedLoading (s : Service B) (t : Nat) (errand : Errand)
    (told : Slot Nat × Admission) : s.Moved t (s.heedLoading t errand told) := by
  obtain ⟨loading, admission⟩ := told
  cases admission with
  | admitted => exact moved_enter rfl rfl t _
  | waiting => exact moved_enter rfl rfl t _
  | refused =>
    cases hm : s.model with
    | none =>
      rw [heedLoading, hm]
      exact ⟨rfl, .inl rfl⟩
    | some m =>
      rw [heedLoading, hm]
      exact moved_enter rfl rfl t _

private theorem moved_heedGate (s : Service B) (t : Nat) (model : LoadedModel B)
    (text : SpokenText) (q : Parameters) (told : Slot Nat × Admission) :
    s.Moved t (s.heedGate t model text q told) := by
  obtain ⟨gate, admission⟩ := told
  cases admission with
  | admitted =>
    rw [heedGate, startGenerating]
    split
    split <;> exact moved_enter rfl rfl t _
  | waiting => exact moved_enter rfl rfl t _
  | refused => exact moved_enter rfl rfl t _

/-- A task that goes on moves no other. -/
private theorem moved_advance (s : Service B) (t : Nat) (p : Phase B) :
    s.Moved t (s.advance t p) := by
  cases p with
  | arrived r => exact moved_accept s t r
  | accepted errand =>
    rw [advance, seekModel]
    split
    · exact moved_enter rfl rfl t _
    · exact moved_heedLoading s t errand _
  | awaitingModel errand => exact moved_heedLoading s t errand _
  | equipped model text q => exact moved_heedGate s t model text q _
  | awaitingGate model text q => exact moved_heedGate s t model text q _
  | _ => exact moved_self s t

private theorem moved_answer (s : Service B) (t : Nat) (p : Phase B) :
    s.Moved t (s.answer t p) := by
  cases p with
  | loadingEngine errand device call =>
    rw [answer, takeEngine.eq_def]
    split <;> exact moved_enter rfl rfl t _
  | loadingProcessor errand device engine call =>
    rw [answer, takeProcessor.eq_def]
    split <;> exact moved_enter rfl rfl t _
  | generating model call => exact moved_enter rfl rfl t _
  | _ => exact moved_self s t

private theorem moved_abandon (s : Service B) (t : Nat) (p : Phase B) :
    s.Moved t (s.abandon t p) := by
  cases p <;> exact moved_forget rfl rfl t

/-- An event about a task moves no other. -/
theorem moved_step {e : ServiceEvent B} (h : e.task? = some t) : s.Moved t (s.step e) := by
  -- Only an event about a task that is there, or not yet there, does anything.
  cases e with
  | request u r =>
    obtain rfl : u = t := by simpa [ServiceEvent.task?] using h
    rw [step]
    split
    · exact moved_self s u
    · exact moved_enter rfl rfl u _
  | summon u =>
    obtain rfl : u = t := by simpa [ServiceEvent.task?] using h
    rw [step]
    split
    · exact moved_self s u
    · exact moved_enter rfl rfl u _
  | advance u =>
    obtain rfl : u = t := by simpa [ServiceEvent.task?] using h
    rw [step, withTask]
    split
    · exact moved_advance s u _
    · exact moved_self s u
  | answer u =>
    obtain rfl : u = t := by simpa [ServiceEvent.task?] using h
    rw [step, withTask]
    split
    · exact moved_answer s u _
    · exact moved_self s u
  | cancel u =>
    obtain rfl : u = t := by simpa [ServiceEvent.task?] using h
    rw [step, withTask]
    split
    · exact moved_abandon s u _
    · exact moved_self s u
  | close => simp [ServiceEvent.task?] at h
  | change w => simp [ServiceEvent.task?] at h

/-- An event about no task leaves the tasks alone. -/
theorem tasks_step_of_none {e : ServiceEvent B} (h : e.task? = none) :
    (s.step e).tasks = s.tasks := by
  cases e <;> first | rfl | simp [ServiceEvent.task?] at h

/-- **Frame.** A task that an event is not about keeps its phase. -/
theorem phase?_step_of_ne {e : ServiceEvent B} (h : e.task? ≠ some u) :
    (s.step e).phase? u = s.phase? u := by
  cases ht : e.task? with
  | none => rw [phase?, tasks_step_of_none ht, phase?]
  | some t =>
    have hu : u ≠ t := by
      rintro rfl
      exact h ht
    -- Whichever way the other task moved, the list without it is the same.
    obtain ⟨-, htasks | htasks | ⟨p, htasks⟩⟩ := moved_step (s := s) ht
    · rw [phase?, htasks, phase?]
    · rw [phase?, htasks]
      exact phase?_forget_of_ne s hu
    · rw [phase?, htasks]
      exact phase?_enter_of_ne s p hu

/-- No event changes the settings. -/
theorem settings_step (s : Service B) (e : ServiceEvent B) :
    (s.step e).settings = s.settings := by
  cases ht : e.task? with
  | none => cases e <;> first | rfl | simp [ServiceEvent.task?] at ht
  | some t => exact (moved_step ht).1

/-- No task stands twice on the list. -/
theorem nodup_step (h : (s.tasks.map (·.1)).Nodup) (e : ServiceEvent B) :
    ((s.step e).tasks.map (·.1)).Nodup := by
  cases ht : e.task? with
  | none => rwa [tasks_step_of_none ht]
  | some t =>
    obtain ⟨-, htasks | htasks | ⟨p, htasks⟩⟩ := moved_step (s := s) ht
    · rwa [htasks]
    · rw [htasks]
      exact Roster.nodup_filter h t
    · rw [htasks]
      exact Roster.nodup_cons_filter h t p

/-! ### Runs -/

/-- The service after some events. -/
def run (s : Service B) (es : List (ServiceEvent B)) : Service B := es.foldl step s

@[simp]
theorem run_nil (s : Service B) : s.run [] = s := rfl

@[simp]
theorem run_cons (s : Service B) (e : ServiceEvent B) (es : List (ServiceEvent B)) :
    s.run (e :: es) = (s.step e).run es := rfl

theorem run_append (s : Service B) (es fs : List (ServiceEvent B)) :
    s.run (es ++ fs) = (s.run es).run fs := List.foldl_append

theorem run_concat (s : Service B) (es : List (ServiceEvent B)) (e : ServiceEvent B) :
    s.run (es ++ [e]) = (s.run es).step e := run_append s es [e]

end Service

/-! ### Moments -/

/-- A **moment**: a service and what happens to it. -/
structure Moment (B : Backend) where
  service : Service B
  event : ServiceEvent B

/-- The service after a moment. -/
def Moment.after (x : Moment B) : Service B := x.service.step x.event

namespace Service

/-- The moments that some events make of a service. -/
def moments (s : Service B) : List (ServiceEvent B) → List (Moment B)
  | [] => []
  | e :: es => ⟨s, e⟩ :: (s.step e).moments es

/-- A run after a run has the moments of both. -/
theorem moments_append (s : Service B) (es fs : List (ServiceEvent B)) :
    s.moments (es ++ fs) = s.moments es ++ (s.run es).moments fs := by
  induction es generalizing s with
  | nil => rfl
  | cons e es ih => exact congrArg (⟨s, e⟩ :: ·) (ih (s.step e))

theorem moments_concat (s : Service B) (es : List (ServiceEvent B)) (e : ServiceEvent B) :
    s.moments (es ++ [e]) = s.moments es ++ [⟨s.run es, e⟩] := moments_append s es [e]

/-- What holds at first and is preserved at every moment holds at the end. -/
theorem run_of_moments {P : Service B → Prop} {s : Service B} (es : List (ServiceEvent B))
    (hs : P s) (hstep : ∀ x ∈ s.moments es, P x.service → P x.after) : P (s.run es) := by
  induction es generalizing s with
  | nil => exact hs
  | cons e es ih =>
    refine ih (hstep ⟨s, e⟩ List.mem_cons_self hs) fun x hx => ?_
    exact hstep x (List.mem_cons_of_mem _ hx)

/-- What holds at first and is preserved by every event holds at every moment. -/
theorem of_mem_moments {P : Service B → Prop} (hstep : ∀ s e, P s → P (s.step e))
    {s : Service B} (hs : P s) {es : List (ServiceEvent B)} {x : Moment B}
    (hx : x ∈ s.moments es) : P x.service := by
  induction es generalizing s with
  | nil => exact absurd hx List.not_mem_nil
  | cons e es ih =>
    obtain rfl | hx := List.mem_cons.mp hx
    · exact hs
    · exact ih (hstep s e hs) hx

theorem settings_run (s : Service B) (es : List (ServiceEvent B)) :
    (s.run es).settings = s.settings :=
  run_of_moments (P := fun s' => s'.settings = s.settings) es rfl fun x _ hx =>
    (settings_step x.service x.event).trans hx

end Service

end SpeechService
