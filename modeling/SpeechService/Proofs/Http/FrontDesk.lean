import Mathlib.Data.List.Induction
import SpeechService.Http.FrontDesk
import SpeechService.Proofs.Service.Progress

/-!
# The front desk, step by step

All that an event can be to a front desk (`FrontDesk.Stepped`), and what every event keeps: the
slots of the service fit its tasks, no task begins before its client is attended to, and a client
that waits has a task (`FrontDesk.Sound`).
-/

namespace SpeechService

variable {B : Backend}

/-- The **number** that an event is about. -/
def DeskEvent.number : DeskEvent → Nat
  | .come n _ => n
  | .summon n => n
  | .begin n => n
  | .advance n => n
  | .answer n => n
  | .respond n => n
  | .leave n => n

/-- The event is about a number that has to be new. -/
def DeskEvent.isNew : DeskEvent → Bool
  | .come .. => true
  | .summon _ => true
  | _ => false

namespace FrontDesk

/-- What an **event** can be to a front desk. -/
inductive Stepped (encoder : Encoder) (d : FrontDesk B) : DeskEvent → FrontDesk B → Prop where
  /-- It is not the time for it. -/
  | still {e} : d.Stepped encoder e d
  | come {n r} (hn : d.knows n = false) : d.Stepped encoder (.come n r) (d.put n { request := r })
  | summon {n} (hn : d.knows n = false) :
    d.Stepped encoder (.summon n) (d.inside (.summon n))
  | begin {n v} (hv : d.visit? n = some v) (hs : v.stage = .here) :
    d.Stepped encoder (.begin n)
      ((d.inside (.request n v.request)).put n { v with stage := .waiting })
  | advance {n} : d.Stepped encoder (.advance n) (d.inside (.advance n))
  | answer {n} : d.Stepped encoder (.answer n) (d.inside (.answer n))
  | respond {n v x} (hv : d.visit? n = some v) (hs : v.stage = .waiting)
    (hx : d.service.phase? n = some (.ended x)) :
    d.Stepped encoder (.respond n)
      (d.put n { v with stage := .answered (Http.ofEnding encoder x) })
  | leave {n v} (hv : d.visit? n = some v) (hs : v.stage = .here ∨ v.stage = .waiting) :
    d.Stepped encoder (.leave n) (d.put n { v with stage := .gone })

variable {encoder : Encoder} {d : FrontDesk B} {n k : Nat} {v : Visit} {e : DeskEvent}

@[simp]
theorem visit?_put_self (d : FrontDesk B) (n : Nat) (v : Visit) :
    (d.put n v).visit? n = some v := by
  simp [visit?, put]

/-- The visit that was put is the one that is there. -/
theorem eq_of_visit?_put {w : Visit} (h : (d.put n v).visit? n = some w) : w = v :=
  Option.some.inj (h.symm.trans (visit?_put_self d n v))

/-- A visit that changes does not touch the others. -/
theorem visit?_put_of_ne (d : FrontDesk B) (v : Visit) (h : k ≠ n) :
    (d.put n v).visit? k = d.visit? k := by
  have hb : (k == n) = false := by simpa using h
  rw [visit?, put, List.lookup_cons, hb]
  exact Roster.lookup_filter_of_ne d.visits h

@[simp]
theorem service_put (d : FrontDesk B) (n : Nat) (v : Visit) : (d.put n v).service = d.service :=
  rfl

@[simp]
theorem visit?_inside (d : FrontDesk B) (x : ServiceEvent B) (n : Nat) :
    (d.inside x).visit? n = d.visit? n := rfl

@[simp]
theorem service_inside (d : FrontDesk B) (x : ServiceEvent B) :
    (d.inside x).service = d.service.step x := rfl

/-- A number that is not known has neither a visit nor a task. -/
theorem eq_none_of_not_knows (h : d.knows n = false) :
    d.visit? n = none ∧ d.service.phase? n = none := by
  simpa [knows] using h

/-! ### Steps -/

/-- A client that is here has its request brought before the service. -/
theorem step_begin (hv : d.visit? n = some v) (hs : v.stage = .here) :
    d.step encoder (.begin n) =
      (d.inside (.request n v.request)).put n { v with stage := .waiting } := by
  simp only [step, withVisit, hv, begin, hs]

/-- A client that waits is answered with what its task ended with. -/
theorem step_respond {x : Ending B} (hv : d.visit? n = some v) (hs : v.stage = .waiting)
    (hx : d.service.phase? n = some (.ended x)) :
    d.step encoder (.respond n) =
      d.put n { v with stage := .answered (Http.ofEnding encoder x) } := by
  simp only [step, withVisit, hv, respond, hs, hx, Option.bind_some, Phase.ending?]

/-- **Inversion.** An event is one of these to a front desk. -/
theorem stepped (encoder : Encoder) (d : FrontDesk B) (e : DeskEvent) :
    d.Stepped encoder e (d.step encoder e) := by
  cases e with
  | come n r =>
    rw [step]
    split
    · exact .still
    · next hn => exact .come (by simpa using hn)
  | summon n =>
    rw [step]
    split
    · exact .still
    · next hn => exact .summon (by simpa using hn)
  | advance n => exact .advance
  | answer n => exact .answer
  | begin n =>
    cases hv : d.visit? n with
    | none =>
      rw [step, withVisit, hv]
      exact .still
    | some v =>
      rw [step, withVisit, hv]
      show d.Stepped encoder (.begin n) (d.begin n v)
      rw [FrontDesk.begin]
      split
      · next hs => exact .begin hv hs
      · exact .still
  | respond n =>
    cases hv : d.visit? n with
    | none =>
      rw [step, withVisit, hv]
      exact .still
    | some v =>
      rw [step, withVisit, hv]
      show d.Stepped encoder (.respond n) (d.respond encoder n v)
      rw [respond]
      split
      -- Only a task that has ended has something to pass on.
      · next x hs hx =>
        obtain ⟨p, hp, hend⟩ := Option.bind_eq_some_iff.mp hx
        cases p <;> cases hend
        exact .respond hv hs hp
      · exact .still
  | leave n =>
    cases hv : d.visit? n with
    | none =>
      rw [step, withVisit, hv]
      exact .still
    | some v =>
      rw [step, withVisit, hv]
      show d.Stepped encoder (.leave n) (d.leave n v)
      rw [leave]
      split
      · next hs => exact .leave hv (.inl hs)
      · next hs => exact .leave hv (.inr hs)
      · exact .still

/-- **Frame.** The visit of a client that an event is not about stays as it is. -/
theorem visit?_step_of_ne (h : k ≠ e.number) : (d.step encoder e).visit? k = d.visit? k := by
  have hstep := d.stepped encoder e
  generalize d.step encoder e = after at hstep ⊢
  cases hstep <;> first
    | rfl
    | exact visit?_put_of_ne _ _ h

/-- **Frame.** So does the task. -/
theorem phase?_step_of_ne (h : k ≠ e.number) :
    (d.step encoder e).service.phase? k = d.service.phase? k := by
  have hne (x : ServiceEvent B) (hx : x.task? = some e.number) : x.task? ≠ some k := by
    rw [hx]
    simpa using h.symm
  have hstep := d.stepped encoder e
  generalize d.step encoder e = after at hstep ⊢
  cases hstep with
  | summon => exact Service.phase?_step_of_ne (hne _ rfl)
  | begin => exact Service.phase?_step_of_ne (hne _ rfl)
  | advance => exact Service.phase?_step_of_ne (hne _ rfl)
  | answer => exact Service.phase?_step_of_ne (hne _ rfl)
  | _ => rfl

/-- A client that leaves does nothing to the service. -/
theorem service_step_leave (encoder : Encoder) (d : FrontDesk B) (n : Nat) :
    (d.step encoder (.leave n)).service = d.service := by
  have hstep := d.stepped encoder (.leave n)
  generalize d.step encoder (.leave n) = after at hstep ⊢
  cases hstep <;> rfl

/-! ### Visits -/

/-- A client keeps its request. -/
theorem request_step (hv : d.visit? n = some v) (e : DeskEvent) :
    ∃ w, (d.step encoder e).visit? n = some w ∧ w.request = v.request := by
  by_cases hn : n = e.number
  · subst hn
    have hstep := d.stepped encoder e
    generalize d.step encoder e = after at hstep ⊢
    cases hstep with
    | come hnew =>
      have hnone : d.visit? _ = none := (eq_none_of_not_knows hnew).1
      exact absurd (hnone.symm.trans hv) (by simp)
    | @begin n w hw hs =>
      obtain rfl : w = v := Option.some.inj (hw.symm.trans hv)
      exact ⟨_, visit?_put_self .., rfl⟩
    | @respond n w x hw hs hx =>
      obtain rfl : w = v := Option.some.inj (hw.symm.trans hv)
      exact ⟨_, visit?_put_self .., rfl⟩
    | @leave n w hw hs =>
      obtain rfl : w = v := Option.some.inj (hw.symm.trans hv)
      exact ⟨_, visit?_put_self .., rfl⟩
    | _ => exact ⟨v, hv, rfl⟩
  · exact ⟨v, (visit?_step_of_ne hn).trans hv, rfl⟩

/-- A client keeps its request. -/
theorem request_run (hv : d.visit? n = some v) (es : List DeskEvent) :
    ∃ w, (d.run encoder es).visit? n = some w ∧ w.request = v.request := by
  induction es generalizing d v with
  | nil => exact ⟨v, hv, rfl⟩
  | cons e es ih =>
    obtain ⟨w, hw, hrequest⟩ := @request_step _ encoder _ _ _ hv e
    obtain ⟨u, hu, hsame⟩ := ih hw
    exact ⟨u, hu, hsame.trans hrequest⟩

/-- A visit after an event is a new one or was there before, and only leaving makes it one of a
client that has gone. -/
theorem visit?_step {w : Visit} (h : (d.step encoder e).visit? n = some w) :
    (e = .come n w.request ∧ w.stage = .here) ∨
      ∃ v, d.visit? n = some v ∧ v.request = w.request ∧
        (w.stage = .gone → v.stage = .gone ∨ e = .leave n) := by
  by_cases hn : n = e.number
  · subst hn
    have hstep := d.stepped encoder e
    generalize d.step encoder e = after at hstep h
    cases hstep with
    | come hnew =>
      obtain rfl := eq_of_visit?_put h
      exact .inl ⟨rfl, rfl⟩
    | begin hv hs =>
      obtain rfl := eq_of_visit?_put h
      exact .inr ⟨_, hv, rfl, nofun⟩
    | respond hv hs hx =>
      obtain rfl := eq_of_visit?_put h
      exact .inr ⟨_, hv, rfl, nofun⟩
    | leave hv hs =>
      obtain rfl := eq_of_visit?_put h
      exact .inr ⟨_, hv, rfl, fun _ => .inr rfl⟩
    | _ => exact .inr ⟨w, h, rfl, .inl⟩
  · rw [visit?_step_of_ne hn] at h
    exact .inr ⟨w, h, rfl, .inl⟩

theorem run_append (d : FrontDesk B) (es more : List DeskEvent) :
    d.run encoder (es ++ more) = (d.run encoder es).run encoder more := List.foldl_append

theorem run_concat (d : FrontDesk B) (es : List DeskEvent) (e : DeskEvent) :
    d.run encoder (es ++ [e]) = (d.run encoder es).step encoder e := run_append d es [e]

/-- **Origin.** Every visit began with its client's coming, and who has gone has left. -/
theorem origin_run (hd : d.visits = []) (es : List DeskEvent)
    (hv : (d.run encoder es).visit? n = some v) :
    .come n v.request ∈ es ∧ (v.stage = .gone → .leave n ∈ es) := by
  -- From the end of the history, since a visit is known by the last event that touched it.
  induction es using List.reverseRecOn generalizing v with
  | nil =>
    have hnone : d.visit? n = none := by rw [visit?, hd]; rfl
    exact absurd (hnone.symm.trans hv) (by simp)
  | append_singleton es e ih =>
    rw [run_concat] at hv
    obtain ⟨rfl, hs⟩ | ⟨w, hw, hrequest, hgone⟩ := visit?_step hv
    · exact ⟨by simp, fun h => by simp [hs] at h⟩
    · obtain ⟨hcome, hleave⟩ := ih hw
      refine ⟨by simp [← hrequest, hcome], fun h => ?_⟩
      obtain hbefore | rfl := hgone h
      · exact List.mem_append_left _ (hleave hbefore)
      · simp

/-! ### Soundness -/

/-- The **service** of a front desk goes on by the events of services. -/
theorem service_step (encoder : Encoder) (d : FrontDesk B) (e : DeskEvent) :
    (d.step encoder e).service = d.service ∨
      ∃ x, (d.step encoder e).service = d.service.step x := by
  have hstep := d.stepped encoder e
  generalize d.step encoder e = after at hstep ⊢
  cases hstep with
  | @summon n => exact .inr ⟨.summon n, rfl⟩
  | @begin n v => exact .inr ⟨.request n v.request, rfl⟩
  | @advance n => exact .inr ⟨.advance n, rfl⟩
  | @answer n => exact .inr ⟨.answer n, rfl⟩
  | _ => exact .inl rfl

/-- A visit and a task go together: no task begins before its client is attended to, and a client
that waits has a task. -/
def Paired (visit : Option Visit) (phase : Option (Phase B)) : Prop :=
  ∀ v, visit = some v →
    (v.stage = .here → phase = none) ∧ (v.stage = .waiting → phase.isSome = true)

/-- A front desk is **sound** when its service is, and the visits and the tasks go together. -/
structure Sound (d : FrontDesk B) : Prop where
  load : d.service.LoadSound
  gate : d.service.GateSound
  nodup : (d.service.tasks.map (·.1)).Nodup
  paired : ∀ n, Paired (d.visit? n) (d.service.phase? n)

theorem sound_new (settings : ServiceSettings) (world : B.World) :
    ({ service := { settings, world } } : FrontDesk B).Sound where
  load := Service.loadSound_new settings world
  gate := Service.gateSound_new settings world
  nodup := List.nodup_nil
  paired _ _ hv := by cases hv

/-- A task that goes on stays with its client. -/
private theorem Paired.mono {visit : Option Visit} {p q : Option (Phase B)}
    (h : Paired visit p) (hq : q.isSome = p.isSome) : Paired visit q := by
  intro v hv
  obtain ⟨hhere, hwaiting⟩ := h v hv
  refine ⟨fun hs => ?_, fun hs => hq.trans (hwaiting hs)⟩
  rw [hhere hs] at hq
  simpa using hq

/-- **One step.** Every event keeps a front desk sound. -/
theorem Sound.step (h : d.Sound) (e : DeskEvent) : (d.step encoder e).Sound where
  load := by
    obtain hs | ⟨x, hs⟩ := service_step encoder d e
    · exact hs ▸ h.load
    · exact hs ▸ h.load.step x
  gate := by
    obtain hs | ⟨x, hs⟩ := service_step encoder d e
    · exact hs ▸ h.gate
    · exact hs ▸ h.gate.step x
  nodup := by
    obtain hs | ⟨x, hs⟩ := service_step encoder d e
    · exact hs ▸ h.nodup
    · exact hs ▸ Service.nodup_step h.nodup x
  paired k := by
    -- Only the number of the event can have changed.
    by_cases hk : k = e.number
    · subst hk
      have hpair := h.paired e.number
      have hstep := d.stepped encoder e
      generalize d.step encoder e = after at hstep ⊢
      cases hstep with
      | still => exact hpair
      | come hn =>
        intro v hv
        obtain rfl := eq_of_visit?_put hv
        exact ⟨fun _ => (eq_none_of_not_knows hn).2, nofun⟩
      | @summon n hn =>
        intro v hv
        have hnone : d.visit? n = none := (eq_none_of_not_knows hn).1
        rw [DeskEvent.number, visit?_inside, hnone] at hv
        cases hv
      | @begin n w hw hs =>
        intro v hv
        obtain rfl := eq_of_visit?_put hv
        exact ⟨nofun, fun _ => Service.isSome_phase?_request d.service n w.request⟩
      | @advance n => exact hpair.mono (Service.isSome_phase?_advance h.load n)
      | @answer n => exact hpair.mono (Service.isSome_phase?_answer h.load n)
      | respond =>
        intro v hv
        obtain rfl := eq_of_visit?_put hv
        exact ⟨nofun, nofun⟩
      | leave =>
        intro v hv
        obtain rfl := eq_of_visit?_put hv
        exact ⟨nofun, nofun⟩
    · rw [visit?_step_of_ne hk, phase?_step_of_ne hk]
      exact h.paired k

/-- **Every run.** -/
theorem Sound.run (h : d.Sound) (es : List DeskEvent) : (d.run encoder es).Sound := by
  induction es generalizing d with
  | nil => exact h
  | cons e es ih => exact ih (h.step e)

end FrontDesk

end SpeechService
