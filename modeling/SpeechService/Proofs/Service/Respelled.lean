import SpeechService.Http.Exchange
import SpeechService.Proofs.Request.SpokenText
import SpeechService.Proofs.Service.InStep
import SpeechService.Proofs.Service.Sessions

/-!
# One request for another

Two requests **come to the same** (`Defaults.Identifies`) when their texts are the same once they
are trimmed, and they resolve to the same parameters. The service cannot tell such requests apart,
whatever state it is in and whatever else goes on: a client gets the same response for either, and
the same state is left (`Session.speak_congr`).

The reason is that a request is looked at only once, when its task goes on for the first time, and
then for nothing but its trimmed text and its parameters. Up to that moment two services are
**twins** that differ in the request of one task (`Service.Twin`), and from then on in nothing.
-/

namespace SpeechService

/-- Two requests **come to the same** when nothing distinguishes their texts but the blanks around
them, and they have the same parameters. -/
structure Defaults.Identifies (d : Defaults) (q r : Request) : Prop where
  text : Text.trim q.text = Text.trim r.text
  resolve_eq : d.resolve q = d.resolve r

variable {B : Backend} {q r : Request} {t u : Nat}

/-! ### Twins -/

/-- Two entries of the list of tasks that are the same, or both of a task that has arrived with
requests that come to the same. -/
inductive Twins (d : Defaults) (t : Nat) : Nat × Phase B → Nat × Phase B → Prop where
  | same (entry : Nat × Phase B) : Twins d t entry entry
  | unseen {q r : Request} (h : d.Identifies q r) : Twins d t (t, .arrived r) (t, .arrived q)

namespace Service

/-- A service and its **twin**, which differs from it at most in the request of one task, as long as
nobody has looked at it. -/
inductive Twin (s : Service B) (t : Nat) : Service B → Prop where
  | mk {tasks} (h : s.tasks.Forall₂ (Twins s.settings.defaults t) tasks) : s.Twin t { s with tasks }

variable {s s' : Service B} {tasks : List (Nat × Phase B)}

theorem twin_self (s : Service B) (t : Nat) : s.Twin t s :=
  .mk (List.forall₂_same.mpr fun entry _ => .same entry)

/-- **Looking at a request.** It is looked at for its trimmed text and its parameters. -/
theorem accept_congr (s : Service B) (h : s.settings.defaults.Identifies q r) (u : Nat) :
    s.accept u q = s.accept u r := by
  rw [accept, accept, SpokenText.parse_congr h.text, h.resolve_eq]

namespace Twin

/-- The tasks but for one. -/
private theorem filter {d : Defaults} {entries : List (Nat × Phase B)}
    (h : entries.Forall₂ (Twins d t) tasks) (u : Nat) :
    (entries.filter (·.1 ≠ u)).Forall₂ (Twins d t) (tasks.filter (·.1 ≠ u)) := by
  refine List.rel_filter (fun a b hab => ?_) h
  cases hab <;> rfl

/-- What a task is doing in both. -/
theorem phases (h : s.Twin t s') (u : Nat) :
    Option.Rel (fun p p' => Twins s.settings.defaults t (u, p) (u, p')) (s.phase? u)
      (s'.phase? u) := by
  obtain ⟨h⟩ := h
  -- The lists go side by side, with the same tasks in the same places.
  rw [phase?, phase?]
  generalize s.tasks = entries at h
  induction h with
  | nil => exact .none
  | @cons a b entries tasks hab _ ih =>
    obtain ⟨v, p⟩ := a
    obtain ⟨v', p'⟩ := b
    obtain rfl : v = v' := by cases hab <;> rfl
    rw [List.lookup_cons, List.lookup_cons]
    cases huv : u == v with
    | false => exact ih
    | true =>
      obtain rfl : u = v := eq_of_beq huv
      exact .some hab

/-- The twin has alike tasks. -/
theorem alike (h : s.Twin t s') (u : Nat) : Phase.Alike (s.phase? u) (s'.phase? u) := by
  have hphases := h.phases u
  generalize s.phase? u = p, s'.phase? u = p' at hphases ⊢
  cases hphases with
  | none => exact .same none
  | some hp =>
    cases hp with
    | same => exact .same _
    | @unseen q r => exact .arrived r q

theorem forget (h : s.Twin t s') (u : Nat) : (s.forget u).Twin t (s'.forget u) := by
  obtain ⟨h⟩ := h
  exact .mk (filter h u)

/-- Without the task, the twin is the same. -/
theorem forget_self (h : s.Twin t s') : s'.forget t = s.forget t := by
  obtain @⟨tasks, h⟩ := h
  have htasks : tasks.filter (·.1 ≠ t) = s.tasks.filter (·.1 ≠ t) := by
    generalize s.tasks = entries at h
    induction h with
    | nil => rfl
    | cons hab _ ih =>
      cases hab with
      | same => rw [List.filter_cons, List.filter_cons, ih]
      | unseen => simpa using ih
  exact congrArg (fun tasks => { s with tasks }) htasks

/-! ### One step -/

/-- A task enters the same phase in both. -/
private theorem enter (h : s.tasks.Forall₂ (Twins s.settings.defaults t) tasks) (u : Nat)
    (p : Phase B) :
    (s.enter u p).tasks.Forall₂ (Twins s.settings.defaults t)
      (({ s with tasks } : Service B).enter u p).tasks :=
  .cons (.same (u, p)) (filter h u)

/-- A task comes in with requests that come to the same. -/
theorem arrive (hqr : s.settings.defaults.Identifies q r) :
    (s.enter t (.arrived r)).Twin t (s.enter t (.arrived q)) :=
  .mk (.cons (.unseen hqr) (List.forall₂_same.mpr fun entry _ => .same entry))

private theorem heedLoading (h : s.tasks.Forall₂ (Twins s.settings.defaults t) tasks) (u : Nat)
    (errand : Errand) (told : Slot Nat × Admission) :
    (s.heedLoading u errand told).Twin t
      (({ s with tasks } : Service B).heedLoading u errand told) := by
  obtain ⟨loading, admission⟩ := told
  obtain ⟨settings, world, model, before, gate, entries⟩ := s
  cases admission with
  | admitted => exact .mk (enter h u _)
  | waiting => exact .mk (enter h u _)
  | refused =>
    cases model with
    | none => exact .mk h
    | some m => exact .mk (enter h u _)

private theorem heedGate (h : s.tasks.Forall₂ (Twins s.settings.defaults t) tasks) (u : Nat)
    (m : LoadedModel B) (text : SpokenText) (p : Parameters) (told : Slot Nat × Admission) :
    (s.heedGate u m text p told).Twin t
      (({ s with tasks } : Service B).heedGate u m text p told) := by
  obtain ⟨gate, admission⟩ := told
  cases admission with
  | waiting => exact .mk (enter h u _)
  | refused => exact .mk (enter h u _)
  | admitted =>
    rcases hencode : B.encode s.world m.processor text.text p.voice with ⟨world, x | inputs⟩
    · simp only [Service.heedGate, startGenerating, hencode]
      exact .mk (enter h u _)
    · simp only [Service.heedGate, startGenerating, hencode]
      exact .mk (enter h u _)

private theorem accept (h : s.tasks.Forall₂ (Twins s.settings.defaults t) tasks) (u : Nat)
    (r : Request) : (s.accept u r).Twin t (({ s with tasks } : Service B).accept u r) := by
  rw [Service.accept, Service.accept]
  cases SpokenText.parse s.settings.textMaxChars r.text with
  | error e => exact .mk (enter h u _)
  | ok text => exact .mk (enter h u _)

private theorem advance (h : s.tasks.Forall₂ (Twins s.settings.defaults t) tasks) (u : Nat)
    (p : Phase B) : (s.advance u p).Twin t (({ s with tasks } : Service B).advance u p) := by
  cases p with
  | arrived r => exact accept h u r
  | accepted errand =>
    obtain ⟨settings, world, model, loading, gate, entries⟩ := s
    cases model with
    | none => exact heedLoading h u errand _
    | some m => exact .mk (enter h u _)
  | awaitingModel errand => exact heedLoading h u errand _
  | equipped m text p => exact heedGate h u m text p _
  | awaitingGate m text p => exact heedGate h u m text p _
  | _ => exact .mk h

private theorem answer (h : s.tasks.Forall₂ (Twins s.settings.defaults t) tasks) (u : Nat)
    (p : Phase B) : (s.answer u p).Twin t (({ s with tasks } : Service B).answer u p) := by
  cases p with
  | loadingEngine errand device call =>
    obtain ⟨delay, x | engine⟩ := call <;> exact .mk (enter h u _)
  | loadingProcessor errand device engine call =>
    obtain ⟨delay, x | processor⟩ := call <;> exact .mk (enter h u _)
  | generating m call => exact .mk (enter h u _)
  | _ => exact .mk h

private theorem abandon (h : s.tasks.Forall₂ (Twins s.settings.defaults t) tasks) (u : Nat)
    (p : Phase B) : (s.abandon u p).Twin t (({ s with tasks } : Service B).abandon u p) := by
  cases p <;> exact .mk (filter h u)

/-- **One step.** Whatever happens to both leaves them twins. -/
theorem step (h : s.Twin t s') (e : ServiceEvent B) : (s.step e).Twin t (s'.step e) := by
  have hphases := h.phases
  obtain @⟨tasks, h⟩ := h
  -- Both services know the same tasks, so that both start one or neither does.
  have hstart (u : Nat) (p : Phase B) :
      Twin (if (s.phase? u).isSome then s else s.enter u p) t
        (if (({ s with tasks } : Service B).phase? u).isSome then { s with tasks }
          else ({ s with tasks } : Service B).enter u p) := by
    have hu := hphases u
    generalize s.phase? u = p₁, ({ s with tasks } : Service B).phase? u = p₂ at hu
    cases hu with
    | none => exact .mk (enter h u p)
    | some hp => exact .mk h
  have htask (u : Nat) {f g : Phase B → Service B}
      (hfg : ∀ p p', Twins s.settings.defaults t (u, p) (u, p') → (f p).Twin t (g p')) :
      (s.withTask u f).Twin t (({ s with tasks } : Service B).withTask u g) := by
    have hu := hphases u
    rw [withTask, withTask]
    generalize s.phase? u = p₁, ({ s with tasks } : Service B).phase? u = p₂ at hu
    cases hu with
    | none => exact .mk h
    | some hp => exact hfg _ _ hp
  cases e with
  | request u r => exact hstart u (.arrived r)
  | summon u => exact hstart u (.accepted .load)
  | advance u =>
    refine htask u fun p p' hp => ?_
    cases hp with
    | same => exact advance h u p
    | @unseen q r hqr =>
      -- Here the requests are looked at, and the twins become one.
      show (s.accept t r).Twin t (({ s with tasks } : Service B).accept t q)
      rw [accept_congr { s with tasks } hqr]
      exact accept h t r
  | answer u =>
    refine htask u fun p p' hp => ?_
    cases hp with
    | same => exact answer h u p
    | unseen => exact .mk h
  | cancel u =>
    refine htask u fun p p' hp => ?_
    cases hp with
    | same => exact abandon h u p
    | unseen => exact .mk (filter h t)
  | close => exact .mk h
  | change w => exact .mk h

theorem run (h : s.Twin t s') (es : List (ServiceEvent B)) : (s.run es).Twin t (s'.run es) := by
  induction es generalizing s s' with
  | nil => exact h
  | cons e es ih => exact ih (h.step e)

end Twin

/-- **Among others.** After the same events, services that were given requests which come to the
same are twins. -/
theorem twin_run (h : s.settings.defaults.Identifies q r) (t : Nat) (es : List (ServiceEvent B)) :
    (s.run (.request t r :: es)).Twin t (s.run (.request t q :: es)) := by
  refine Twin.run ?_ es
  rw [step, step]
  split
  · exact s.twin_self t
  · exact .arrive h

end Service

/-! ### Sessions -/

namespace Session

variable {S : Session B}

theorem keepsStep_twin (t : Nat) : KeepsStep fun s s' : Service B => s.Twin t s' where
  loading := by
    rintro s _ ⟨h⟩
    rfl
  gate := by
    rintro s _ ⟨h⟩
    rfl
  phases s s' h := h.alike
  advance s s' h u := h.step (.advance u)
  answer s s' h u := h.step (.answer u)
  close s s' h := h.step .close
  elapse := by
    rintro s _ ⟨h⟩ time
    exact Service.Twin.step (.mk h) (.change (B.elapse s.world time))

/-- **In every session.** Requests that come to the same get the same response, and leave the same
state. -/
theorem speak_congr (h : S.service.settings.defaults.Identifies q r) (encoder : Encoder) :
    S.speak encoder q = S.speak encoder r := by
  have hk := keepsStep_twin (B := B) S.next
  have hself : InStep (fun s s' : Service B => s.Twin S.next s') S S :=
    ⟨S.service.twin_self S.next, rfl⟩
  have hsettled := (hself.start_speak hk (Service.twin_run h S.next [])).settle hk (turns 1)
  have hserve : S.serve [.speak q] none = S.serve [.speak r] none := by
    obtain ⟨s', hs', hs⟩ := InStep.mk_iff.mp hsettled
    rw [serve_none, serve_none]
    simp only [List.length_singleton, List.foldl_cons, List.foldl_nil, List.range_one,
      List.map_cons, List.map_nil, Nat.add_zero, hs, hs'.forget_self, (hs'.alike _).ending]
  rw [speak, speak, hserve]

end Session

end SpeechService
