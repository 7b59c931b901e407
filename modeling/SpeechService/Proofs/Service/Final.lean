import SpeechService.Proofs.Service.InStep
import SpeechService.Proofs.Service.SingleFlight

/-!
# After the model is published

Publication is **final** (`Service.Final`): the model stays, the loading slot stays closed, and
nobody is in the middle of an attempt to load, now or ever after (`Service.Final.step`). So nobody
calls the loader any more.

For a backend that looks at its world for nothing but loading (`Backend.LooksToLoad`), the world has
no say from then on. Two services that differ in their worlds only go through the same states
(`Service.Final.worldApart_run`), and so do two sessions with such services
(`Service.Final.keepsClients`).
-/

namespace SpeechService

variable {B : Backend}

/-- A backend that **looks** at its world only **to load**: what comes of encoding and of generating
does not depend on it. -/
structure Backend.LooksToLoad (B : Backend) : Prop where
  encode : ∀ w w' processor text voice,
    (B.encode w processor text voice).2 = (B.encode w' processor text voice).2
  generate : ∀ w w' engine inputs options,
    (B.generate w engine inputs options).2 = (B.generate w' engine inputs options).2

/-- The world changes by itself. -/
def ServiceEvent.isChange : ServiceEvent B → Bool
  | .change _ => true
  | _ => false

/-- What comes after the model is there is not to load it. -/
theorem Errand.loads_withModel (errand : Errand) (m : LoadedModel B) :
    (errand.withModel m).loads = false := by
  cases errand <;> rfl

namespace Service

variable {s s' : Service B} {m : LoadedModel B} {t : Nat} {p : Phase B}

/-! ### Publication is final -/

/-- The model `m` is published for good. -/
structure Final (s : Service B) (m : LoadedModel B) : Prop where
  model : s.model = some m
  closed : s.loading.closed = true
  loads : ∀ t p, s.phase? t = some p → p.loads = false

/-- A sound service with a model is final. -/
theorem LoadSound.final (h : s.LoadSound) (hm : s.model = some m) : s.Final m where
  model := hm
  closed := by rw [h.closed_eq, hm]; rfl
  loads t p hp := by
    have hin := h.not_inside (by simp [hm]) t
    rw [loadingStanding_eq hp] at hin
    exact Bool.eq_false_iff.mpr (mt p.loads_iff.mp hin)

namespace Final

theorem isReady (h : s.Final m) : s.isReady = true := by
  rw [Service.isReady, h.model]
  rfl

theorem device (h : s.Final m) : s.device = m.device := by
  rw [Service.device, h.model]
  rfl

/-- A task enters a phase in which it does not load. -/
theorem enter (h : s.Final m) (t : Nat) (hp : p.loads = false) (loading : Slot Nat)
    (hl : loading.closed = s.loading.closed) :
    ({ s with loading }.enter t p).Final m where
  model := h.model
  closed := hl.trans h.closed
  loads u q hq := by
    by_cases hu : u = t
    · subst hu
      rw [phase?_enter_self] at hq
      exact Option.some.inj hq ▸ hp
    · rw [phase?_enter_of_ne _ _ hu] at hq
      exact h.loads u q hq

/-- A task is forgotten. -/
theorem forget (h : s.Final m) (t : Nat) (loading : Slot Nat)
    (hl : loading.closed = s.loading.closed) : ({ s with loading }.forget t).Final m where
  model := h.model
  closed := hl.trans h.closed
  loads u q hq := by
    by_cases hu : u = t
    · subst hu
      simp at hq
    · rw [phase?_forget_of_ne _ hu] at hq
      exact h.loads u q hq

/-- A task that looks for the model is told of it. -/
theorem heedLoading_eq (h : s.Final m) {errand : Errand} {told : Slot Nat × Admission}
    (ht : s.Told t errand told) : told.2 = .refused ∧ told.1.closed = s.loading.closed := by
  refine ⟨?_, ht.closed_eq⟩
  cases ht with
  | asks hp hm => exact absurd (hm.symm.trans h.model) (by simp)
  | looks hp => rw [Slot.look, if_pos h.closed]

/-- **One step.** Nothing that happens undoes the publication. -/
theorem step (h : s.Final m) (e : ServiceEvent B) : (s.step e).Final m := by
  have hl := s.loadStep e
  generalize s.step e = after at hl
  cases hl with
  | change w => exact ⟨h.model, h.closed, h.loads⟩
  | aside seekers model loading =>
    refine ⟨model.trans h.model, loading ▸ h.closed, fun t p hp => ?_⟩
    by_contra hloads
    -- A loader is a seeker, and there are no other seekers than before.
    have hseeks : p.seeking?.isSome = true := by
      cases p <;> first | rfl | exact absurd rfl hloads
    have hseeker : s.seeker? t = some p := by
      rw [← seekers, seeker?_eq hp, if_pos hseeks]
    exact hloads (h.loads t p (Option.filter_eq_some_iff.mp hseeker).1)
  | joins errand => exact h.enter _ rfl s.loading rfl
  | @finds t errand m' hp hm => exact h.enter t (errand.loads_withModel m') s.loading rfl
  | @hears t errand told ht =>
    obtain ⟨hrefused, hclosed⟩ := h.heedLoading_eq ht
    obtain ⟨loading, admission⟩ := told
    obtain rfl : admission = .refused := hrefused
    rw [heedLoading_refused h.model]
    exact h.enter t (errand.loads_withModel m) loading hclosed
  | goesOn hp => exact absurd (h.loads _ _ hp) (by simp [Phase.loads])
  | fails hp hs hx =>
    have hin := Phase.loadingStanding_of_loadFailure hx
    exact absurd (h.loads _ _ hp) (by simp [(Phase.loads_iff _).mpr hin])
  | publishes hp => exact absurd (h.loads _ _ hp) (by simp [Phase.loads])
  | leaves => exact h.forget _ s.loading rfl
  | givesUp => exact h.forget _ _ (Slot.closed_leave s.loading _)
  | breaksOff => exact h.forget _ _ (Slot.closed_release s.loading _)

theorem run (h : s.Final m) (es : List (ServiceEvent B)) : (s.run es).Final m :=
  run_of_moments (P := fun s' => s'.Final m) es h fun x _ hx => hx.step x.event

end Final

/-! ### The world has no say -/

/-- A service and the same service in another **world**. -/
inductive WorldApart (s : Service B) : Service B → Prop where
  | mk (world : B.World) : s.WorldApart { s with world }

namespace WorldApart

theorem symm (h : s.WorldApart s') : s'.WorldApart s := by
  obtain ⟨w⟩ := h
  exact .mk s.world

theorem trans {s'' : Service B} (h : s.WorldApart s') (h' : s'.WorldApart s'') :
    s.WorldApart s'' := by
  obtain ⟨w⟩ := h
  obtain ⟨w'⟩ := h'
  exact .mk w'

end WorldApart

namespace Final

private theorem startGenerating (hB : B.LooksToLoad) (s : Service B) (w : B.World) (t : Nat)
    (m : LoadedModel B) (text : SpokenText) (q : Parameters) :
    (s.startGenerating t m text q).WorldApart
      (({ s with world := w } : Service B).startGenerating t m text q) := by
  have hencode := hB.encode w s.world m.processor text.text q.voice
  rw [Service.startGenerating, Service.startGenerating]
  dsimp only
  rw [hencode]
  cases (B.encode s.world m.processor text.text q.voice).2 with
  | error x => exact .mk _
  | ok inputs =>
    dsimp only
    rw [hB.generate (B.encode w m.processor text.text q.voice).1
      (B.encode s.world m.processor text.text q.voice).1]
    exact .mk _

private theorem heedGate (hB : B.LooksToLoad) (s : Service B) (w : B.World) (t : Nat)
    (m : LoadedModel B) (text : SpokenText) (q : Parameters) (told : Slot Nat × Admission) :
    (s.heedGate t m text q told).WorldApart
      (({ s with world := w } : Service B).heedGate t m text q told) := by
  obtain ⟨gate, admission⟩ := told
  cases admission with
  | admitted => exact startGenerating hB { s with gate } w t m text q
  | waiting => exact .mk w
  | refused => exact .mk w

/-- A task that goes on does not ask for the world. -/
private theorem advance (hB : B.LooksToLoad) (h : s.Final m) (w : B.World) (t : Nat)
    (p : Phase B) :
    (s.advance t p).WorldApart (({ s with world := w } : Service B).advance t p) := by
  obtain ⟨hmodel, hclosed, -⟩ := h
  obtain ⟨settings, world, model, loading, gate, tasks⟩ := s
  obtain rfl : model = some m := hmodel
  cases p with
  | arrived r =>
    simp only [Service.advance, accept]
    cases SpokenText.parse settings.textMaxChars r.text with
    | error e => exact .mk w
    | ok text => exact .mk w
  | accepted errand => exact .mk w
  | awaitingModel errand =>
    have hlook : loading.look t = (loading.leave t, .refused) := if_pos hclosed
    simp only [Service.advance, hlook]
    exact .mk w
  | equipped m text q => exact heedGate hB _ w t m text q _
  | awaitingGate m text q => exact heedGate hB _ w t m text q _
  | _ => exact .mk w

/-- Nobody waits for a call of the loader. -/
private theorem answer (h : s.Final m) (w : B.World) (t : Nat) (hp : s.phase? t = some p) :
    (s.answer t p).WorldApart (({ s with world := w } : Service B).answer t p) := by
  have hloads := h.loads t p hp
  cases p with
  | loadingEngine => simp [Phase.loads] at hloads
  | loadingProcessor => simp [Phase.loads] at hloads
  | generating m call => exact .mk _
  | _ => exact .mk w

private theorem abandon (s : Service B) (w : B.World) (t : Nat) (p : Phase B) :
    (s.abandon t p).WorldApart (({ s with world := w } : Service B).abandon t p) := by
  cases p <;> exact .mk w

/-- **One step.** It leaves the services the same but for their worlds. -/
theorem worldApart_step (hB : B.LooksToLoad) (h : s.Final m) (hs : s.WorldApart s')
    (e : ServiceEvent B) : (s.step e).WorldApart (s'.step e) := by
  obtain ⟨w⟩ := hs
  have htask (t : Nat) (f g : Phase B → Service B)
      (hfg : ∀ p, s.phase? t = some p → (f p).WorldApart (g p)) :
      (s.withTask t f).WorldApart (({ s with world := w } : Service B).withTask t g) := by
    have hphase : ({ s with world := w } : Service B).phase? t = s.phase? t := rfl
    rw [withTask, withTask, hphase]
    cases hp : s.phase? t with
    | none => exact .mk w
    | some p => exact hfg p hp
  have hstart (t : Nat) (p : Phase B) :
      WorldApart (if (s.phase? t).isSome then s else s.enter t p)
        (if (s.phase? t).isSome then { s with world := w }
          else ({ s with world := w } : Service B).enter t p) := by
    split <;> exact .mk w
  cases e with
  | request t r => exact hstart t (.arrived r)
  | summon t => exact hstart t (.accepted .load)
  | advance t => exact htask t _ _ fun p _ => advance hB h w t p
  | answer t => exact htask t _ _ fun p hp => answer h w t hp
  | cancel t => exact htask t _ _ fun p _ => abandon s w t p
  | close => exact .mk w
  | change v => exact .mk v

/-- A run goes through the same states without the changes of the world. -/
theorem worldApart_run_filter (hB : B.LooksToLoad) (h : s.Final m) (hs : s.WorldApart s')
    (es : List (ServiceEvent B)) :
    (s.run es).WorldApart (s'.run (es.filter (!·.isChange))) := by
  induction es generalizing s s' with
  | nil => exact hs
  | cons e es ih =>
    cases he : e.isChange with
    | false =>
      rw [List.filter_cons_of_pos (by simp [he])]
      exact ih (h.step e) (h.worldApart_step hB hs e)
    | true =>
      rw [List.filter_cons_of_neg (by simp [he])]
      refine ih (h.step e) ?_
      cases e with
      | change v =>
        obtain ⟨w⟩ := hs
        exact .mk w
      | _ => cases he

/-- **Every run.** Changes of the world make no difference but to the world. -/
theorem worldApart_run (hB : B.LooksToLoad) (h : s.Final m) {es es' : List (ServiceEvent B)}
    (hes : es.filter (!·.isChange) = es'.filter (!·.isChange)) :
    (s.run es).WorldApart (s.run es') := by
  have hsame : s.WorldApart s := .mk s.world
  have hfirst := h.worldApart_run_filter hB hsame es
  have hsecond := h.worldApart_run_filter hB hsame es'
  rw [hes] at hfirst
  exact hfirst.trans hsecond.symm

/-- **Sessions.** Two sessions with services that differ in their worlds only go on in step. -/
theorem keepsClients (hB : B.LooksToLoad) (m : LoadedModel B) :
    Session.KeepsClients fun s s' : Service B => s.Final m ∧ s.WorldApart s' where
  loading := by
    rintro s _ ⟨-, ⟨w⟩⟩
    rfl
  gate := by
    rintro s _ ⟨-, ⟨w⟩⟩
    rfl
  phases := by
    rintro s _ ⟨-, ⟨w⟩⟩ t
    exact .same _
  advance _ _ h t := ⟨h.1.step _, h.1.worldApart_step hB h.2 _⟩
  answer _ _ h t := ⟨h.1.step _, h.1.worldApart_step hB h.2 _⟩
  close _ _ h := ⟨h.1.step _, h.1.worldApart_step hB h.2 _⟩
  request _ _ h t r := ⟨h.1.step _, h.1.worldApart_step hB h.2 _⟩
  summon _ _ h t := ⟨h.1.step _, h.1.worldApart_step hB h.2 _⟩
  elapse := by
    rintro s _ ⟨h, ⟨w⟩⟩ time
    exact ⟨h.step _, .mk _⟩
  forget := by
    rintro s _ ⟨h, ⟨w⟩⟩ t
    exact ⟨h.forget t s.loading rfl, .mk w⟩

end Final

end Service

end SpeechService
