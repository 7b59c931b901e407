import SpeechService.Proofs.Service.Loading
import SpeechService.Proofs.Synthetic.Loading
import SpeechService.Service.Session

/-!
# The course of a request

Every task of a service with the synthetic backend is at all times somewhere on the way that its
order sets out for it (`Phase.OnCourse`), whatever else goes on: the files may change, the gate may
close, tasks may come and be dropped, as far as the **surroundings** let them. The way leads to a
few ends only (`Settings.Ended`), and every step keeps to it (`Service.OnCourse.step`).
-/

namespace SpeechService

/-- What may go on **around** a service: which files it may find, and whether its gate may be
closed. -/
structure Surroundings where
  files : Files → Prop
  closing : Prop

/-- The event may happen in the surroundings. -/
def Surroundings.Allow {s : Settings} {search : DeviceSearch} (around : Surroundings) :
    ServiceEvent (s.backend search) → Prop
  | .change files => around.files files
  | .close => around.closing
  | _ => True

/-! ### Orders -/

/-- What an order comes to, if its text can be spoken. -/
def Settings.errand (s : Settings) : Session.Order → Except TextError Errand
  | .load => .ok .load
  | .speak r =>
    match SpokenText.parse s.textMaxChars r.text with
    | .error e => .error e
    | .ok text => .ok (.speak text (s.defaults.resolve r))

namespace Service

variable {B : Backend}

/-- Who ordered what, after an event. -/
def note (σ : Service B) (orders : Nat → Option Session.Order) :
    ServiceEvent B → Nat → Option Session.Order
  | .request t r =>
    if (σ.phase? t).isSome then orders else Function.update orders t (some (.speak r))
  | .summon t => if (σ.phase? t).isSome then orders else Function.update orders t (some .load)
  | _ => orders

/-- Who ordered what, after some events. -/
def notes (σ : Service B) (orders : Nat → Option Session.Order) :
    List (ServiceEvent B) → Nat → Option Session.Order
  | [] => orders
  | e :: es => (σ.step e).notes (σ.note orders e) es

end Service

/-! ### On course -/

section

variable (s : Settings) (search : DeviceSearch) (around : Surroundings) (order : Session.Order)
  (model : Option (LoadedModel (s.backend search)))

/-- How a task of an order may **end** while the service has this model. -/
inductive Settings.Ended : Ending (s.backend search) → Prop where
  | text {e} (h : s.errand order = .error e) : Ended (.spoken (.error (.ofText e)))
  | failed {errand x} (h : s.errand order = .ok errand)
    (hx : s.LoadFailure search around.files x) : Ended (errand.failed x)
  | closed {text p} (h : s.errand order = .ok (.speak text p)) (hc : around.closing) :
    Ended (.spoken (.error .gateClosed))
  | loaded {m} (h : s.errand order = .ok .load) (hm : model = some m) : Ended (.loaded (.ok m))
  | uttered {m text p} (h : s.errand order = .ok (.speak text p)) (hm : model = some m) :
    Ended (.spoken (m.utterance text.text p))

/-- A phase in which a task of an order may be while the service has this model. -/
def Phase.OnCourse : Phase (s.backend search) → Prop
  | .arrived r => order = .speak r
  | .accepted errand => s.errand order = .ok errand
  | .awaitingModel errand => s.errand order = .ok errand
  | .loadingEngine errand device call => s.errand order = .ok errand ∧ device = s.settled search ∧
    ∃ f, around.files f ∧ call.result = s.loadEngine search f
  | .loadingProcessor errand device engine call => s.errand order = .ok errand ∧
    device = s.settled search ∧
      (∃ f e, around.files f ∧ s.loadEngine search f = .ok e ∧ engine = e.prepare) ∧
        ∃ f, around.files f ∧ call.result = s.loadProcessor f
  | .equipped m text p => s.errand order = .ok (.speak text p) ∧ model = some m
  | .awaitingGate m text p => s.errand order = .ok (.speak text p) ∧ model = some m
  | .generating m call => model = some m ∧ ∃ text p, s.errand order = .ok (.speak text p) ∧
    m.reader.knows p.voice = true ∧ call.result = .speech [m.speech text.text p]
  | .ended x => s.Ended search around order model x

end

variable {s : Settings} {search : DeviceSearch} {around : Surroundings}
  {orders : Nat → Option Session.Order}

/-- A phase that is on course without a model is so with any. -/
theorem Phase.OnCourse.of_none {order : Session.Order} {p : Phase (s.backend search)}
    (h : p.OnCourse s search around order none) (model : Option (LoadedModel (s.backend search))) :
    p.OnCourse s search around order model := by
  cases p with
  | equipped m text q => exact absurd h.2 (by simp)
  | awaitingGate m text q => exact absurd h.2 (by simp)
  | generating m call => exact absurd h.1 (by simp)
  | ended x =>
    cases h with
    | text h => exact .text h
    | failed h hx => exact .failed h hx
    | closed h hc => exact .closed h hc
    | loaded h hm => exact absurd hm (by simp)
    | uttered h hm => exact absurd hm (by simp)
  | _ => exact h

/-- A task that seeks the model does so for the errand of its order. -/
theorem Phase.OnCourse.errand_eq {order : Session.Order} {p : Phase (s.backend search)}
    {model : Option (LoadedModel (s.backend search))} {errand : Errand}
    (h : p.OnCourse s search around order model) (hs : p.seeking? = some errand) :
    s.errand order = .ok errand := by
  cases p with
  | accepted errand' => exact Option.some.inj hs ▸ h
  | awaitingModel errand' => exact Option.some.inj hs ▸ h
  | loadingEngine errand' device call => exact Option.some.inj hs ▸ h.1
  | loadingProcessor errand' device engine call => exact Option.some.inj hs ▸ h.1
  | _ => cases hs

/-- An attempt to load the model fails by the files that are there. -/
theorem Phase.OnCourse.loadFailure {order : Session.Order} {p : Phase (s.backend search)}
    {model : Option (LoadedModel (s.backend search))} {x : EngineError}
    (h : p.OnCourse s search around order model) (hx : p.loadFailure? = some x) :
    s.LoadFailure search around.files x := by
  cases p with
  | loadingEngine errand device call =>
    obtain ⟨-, -, f, hf, hcall⟩ := h
    obtain ⟨delay, y | engine⟩ := call
    · exact ⟨f, hf, .inl (Option.some.inj hx ▸ hcall.symm)⟩
    · cases hx
  | loadingProcessor errand device engine call =>
    obtain ⟨-, -, -, f, hf, hcall⟩ := h
    obtain ⟨delay, y | processor⟩ := call
    · exact ⟨f, hf, .inr (Option.some.inj hx ▸ hcall.symm)⟩
    · cases hx
  | _ => cases hx

/-- A service is **on course** when all its tasks are. -/
structure Service.OnCourse (σ : Service (s.backend search)) (around : Surroundings)
    (orders : Nat → Option Session.Order) : Prop where
  settings_eq : σ.settings = s.service
  files : around.files σ.world
  closing : σ.gate.closed = true → around.closing
  loaded : ∀ m, σ.model = some m → s.Loaded search around.files m
  phases : ∀ t p, σ.phase? t = some p →
    ∃ order, orders t = some order ∧ p.OnCourse s search around order σ.model

namespace Service

variable {σ : Service (s.backend search)} {t : Nat} {order : Session.Order}
  {p : Phase (s.backend search)}

theorem onCourse_start (s : Settings) (search : DeviceSearch) {files : Files}
    (h : around.files files) : (s.start search files).OnCourse around fun _ => none where
  settings_eq := rfl
  files := h
  closing hc := by cases hc
  loaded _ hm := by cases hm
  phases _ _ hp := by cases hp

namespace OnCourse

/-- Only the orders of tasks that are there count. -/
theorem congr {others : Nat → Option Session.Order} (h : σ.OnCourse around orders)
    (ho : ∀ t p, σ.phase? t = some p → others t = orders t) : σ.OnCourse around others where
  settings_eq := h.settings_eq
  files := h.files
  closing := h.closing
  loaded := h.loaded
  phases t p hp := by
    obtain ⟨order, ht, hcourse⟩ := h.phases t p hp
    exact ⟨order, (ho t p hp).trans ht, hcourse⟩

/-- A task enters a phase on its course. -/
theorem enter (h : σ.OnCourse around orders) (ht : orders t = some order)
    (p : Phase (s.backend search)) (hp : p.OnCourse s search around order σ.model)
    (loading gate : Slot Nat) (hg : gate.closed = σ.gate.closed) :
    ({ σ with loading, gate }.enter t p).OnCourse around orders where
  settings_eq := h.settings_eq
  files := h.files
  closing hc := h.closing (hg.symm.trans hc)
  loaded := h.loaded
  phases u q hq := by
    by_cases hu : u = t
    · subst hu
      rw [phase?_enter_self] at hq
      exact ⟨order, ht, Option.some.inj hq ▸ hp⟩
    · rw [phase?_enter_of_ne _ _ hu] at hq
      exact h.phases u q hq

/-- A task is forgotten. -/
theorem forget (h : σ.OnCourse around orders) (t : Nat) (loading gate : Slot Nat)
    (hg : gate.closed = σ.gate.closed) :
    ({ σ with loading, gate }.forget t).OnCourse around orders where
  settings_eq := h.settings_eq
  files := h.files
  closing hc := h.closing (hg.symm.trans hc)
  loaded := h.loaded
  phases u q hq := by
    by_cases hu : u = t
    · subst hu
      simp at hq
    · rw [phase?_forget_of_ne _ hu] at hq
      exact h.phases u q hq

/-- A new task enters its first phase. -/
theorem newcomer (h : σ.OnCourse around orders) (order : Session.Order)
    (hp : p.OnCourse s search around order σ.model) :
    (σ.enter t p).OnCourse around (Function.update orders t (some order)) where
  settings_eq := h.settings_eq
  files := h.files
  closing := h.closing
  loaded := h.loaded
  phases u q hq := by
    by_cases hu : u = t
    · subst hu
      rw [phase?_enter_self] at hq
      exact ⟨order, Function.update_self .., Option.some.inj hq ▸ hp⟩
    · rw [phase?_enter_of_ne _ _ hu] at hq
      rw [Function.update_of_ne hu]
      exact h.phases u q hq

/-! ### Going on -/

private theorem accept (h : σ.OnCourse around orders) {r : Request}
    (ht : orders t = some (.speak r)) : (σ.accept t r).OnCourse around orders := by
  rw [Service.accept, show σ.settings = s.service from h.settings_eq]
  cases hparse : SpokenText.parse s.textMaxChars r.text with
  | error e =>
    have herrand : s.errand (.speak r) = .error e := by rw [Settings.errand, hparse]
    rw [show SpokenText.parse s.service.textMaxChars r.text = .error e from hparse]
    exact h.enter ht (.ended _) (.text herrand) _ _ rfl
  | ok text =>
    have herrand : s.errand (.speak r) = .ok (.speak text (s.defaults.resolve r)) := by
      rw [Settings.errand, hparse]
    rw [show SpokenText.parse s.service.textMaxChars r.text = .ok text from hparse]
    exact h.enter ht (.accepted _) herrand _ _ rfl

private theorem enterWithModel (h : σ.OnCourse around orders) (ht : orders t = some order)
    {errand : Errand} (he : s.errand order = .ok errand) {m : LoadedModel (s.backend search)}
    (hm : σ.model = some m) (loading : Slot Nat) :
    ({ σ with loading }.enter t (errand.withModel m)).OnCourse around orders := by
  refine h.enter ht _ ?_ loading σ.gate rfl
  cases errand with
  | load => exact .loaded he hm
  | speak text q => exact ⟨he, hm⟩

private theorem heedLoading (h : σ.OnCourse around orders) (ht : orders t = some order)
    {errand : Errand} (he : s.errand order = .ok errand) (told : Slot Nat × Admission) :
    (σ.heedLoading t errand told).OnCourse around orders := by
  obtain ⟨loading, admission⟩ := told
  cases admission with
  | admitted =>
    have hp : (Phase.loadingEngine errand (s.settled search)
        ⟨0, s.loadEngine search σ.world⟩).OnCourse s search around order σ.model := by
      refine ⟨he, rfl, σ.world, h.files, ?_⟩
      dsimp only
    have hsettings : ({ σ with loading } : Service (s.backend search)).settings = s.service :=
      h.settings_eq
    rw [Service.heedLoading, startLoading_eq hsettings]
    exact h.enter ht _ hp loading σ.gate rfl
  | waiting => exact h.enter ht (.awaitingModel errand) he loading σ.gate rfl
  | refused =>
    cases hm : σ.model with
    | some m =>
      rw [heedLoading_refused hm]
      exact h.enterWithModel ht he hm loading
    | none =>
      have hsame : σ.heedLoading t errand (loading, .refused) = { σ with loading } := by
        simp only [Service.heedLoading, hm]
      rw [hsame]
      exact ⟨h.settings_eq, h.files, h.closing, h.loaded, h.phases⟩

private theorem heedGate (h : σ.OnCourse around orders) (ht : orders t = some order)
    {m : LoadedModel (s.backend search)} {text : SpokenText} {q : Parameters}
    (he : s.errand order = .ok (.speak text q)) (hm : σ.model = some m)
    {told : Slot Nat × Admission} (hg : told.1.closed = σ.gate.closed)
    (hr : told.2 = .refused → σ.gate.closed = true) :
    (σ.heedGate t m text q told).OnCourse around orders := by
  obtain ⟨gate, admission⟩ := told
  cases admission with
  | admitted =>
    have hcoherent := (h.loaded m hm).coherent
    rw [Service.heedGate]
    cases hk : m.reader.knows q.voice with
    | true =>
      rw [startGenerating_of_knows hcoherent hk]
      exact h.enter ht (.generating m _) ⟨hm, text, q, he, hk, rfl⟩ σ.loading gate hg
    | false =>
      rw [startGenerating_of_not_knows hk]
      exact h.enter ht (.ended _) (.uttered he hm) σ.loading _
        ((Slot.closed_release gate t).trans hg)
  | waiting => exact h.enter ht (.awaitingGate m text q) ⟨he, hm⟩ σ.loading gate hg
  | refused => exact h.enter ht (.ended _) (.closed he (h.closing (hr rfl))) σ.loading gate hg

/-- A task goes on from a phase on its course. -/
theorem advance (h : σ.OnCourse around orders) (hp : σ.phase? t = some p) :
    (σ.advance t p).OnCourse around orders := by
  obtain ⟨order, ht, hcourse⟩ := h.phases t p hp
  cases p with
  | arrived r =>
    obtain rfl : order = .speak r := hcourse
    exact h.accept ht
  | accepted errand =>
    rw [Service.advance, seekModel]
    cases hm : σ.model with
    | none => exact h.heedLoading ht hcourse _
    | some m => exact h.enterWithModel ht hcourse hm σ.loading
  | awaitingModel errand => exact h.heedLoading ht hcourse _
  | equipped m text q =>
    exact h.heedGate ht hcourse.1 hcourse.2 (Slot.closed_ask _ _) Slot.closed_of_ask
  | awaitingGate m text q =>
    exact h.heedGate ht hcourse.1 hcourse.2 (Slot.closed_look _ _) Slot.closed_of_look
  | _ => exact h

private theorem failLoading (h : σ.OnCourse around orders) (ht : orders t = some order)
    {errand : Errand} (he : s.errand order = .ok errand) {x : EngineError}
    (hx : s.LoadFailure search around.files x) :
    (σ.failLoading t errand x).OnCourse around orders :=
  h.enter ht (.ended _) (.failed he hx) (σ.loading.release t) σ.gate rfl

/-- The model is published: the tasks on course without a model are so with this one. -/
private theorem publish (h : σ.OnCourse around orders) (ht : orders t = some order)
    {errand : Errand} (he : s.errand order = .ok errand) (hn : σ.model = none)
    {m : LoadedModel (s.backend search)} (hm : s.Loaded search around.files m)
    (loading : Slot Nat) :
    ({ σ with model := some m, loading }.enter t (errand.withModel m)).OnCourse around orders := by
  have hσ : ({ σ with model := some m } : Service (s.backend search)).OnCourse around orders := by
    refine ⟨h.settings_eq, h.files, h.closing, fun m' hm' => Option.some.inj hm' ▸ hm, ?_⟩
    -- Nobody could have come past the loading while there was no model.
    intro u q hq
    obtain ⟨order', hu, hq'⟩ := h.phases u q hq
    rw [hn] at hq'
    exact ⟨order', hu, hq'.of_none _⟩
  exact hσ.enterWithModel ht he rfl loading

/-- A call comes back to a task that is on its course. -/
theorem answer (h : σ.OnCourse around orders) (hl : σ.LoadSound) (hp : σ.phase? t = some p) :
    (σ.answer t p).OnCourse around orders := by
  obtain ⟨order, ht, hcourse⟩ := h.phases t p hp
  cases p with
  | loadingEngine errand device call =>
    obtain ⟨he, rfl, f, hf, hcall⟩ := hcourse
    rw [Service.answer, hcall]
    cases hengine : s.loadEngine search f with
    | error x => exact h.failLoading ht he ⟨f, hf, .inl hengine⟩
    | ok engine =>
      have htake := takeEngine_ok h.settings_eq t errand (s.settled search) engine
      refine (congrArg (fun τ => τ.OnCourse around orders) htake).mpr ?_
      have hnext : (Phase.loadingProcessor errand (s.settled search) engine.prepare
          ⟨0, s.loadProcessor σ.world⟩).OnCourse s search around order σ.model := by
        refine ⟨he, rfl, ⟨f, engine, hf, hengine, rfl⟩, σ.world, h.files, ?_⟩
        -- Not by `rfl`, which would begin to evaluate the loading of the processor.
        dsimp only
      exact h.enter ht _ hnext σ.loading σ.gate rfl
  | loadingProcessor errand device engine call =>
    obtain ⟨he, rfl, ⟨f, e, hf, hengine, rfl⟩, g, hg, hcall⟩ := hcourse
    show (σ.takeProcessor t errand (s.settled search) e.prepare call.result).OnCourse around orders
    rw [hcall]
    cases hprocessor : s.loadProcessor g with
    | error x => exact h.failLoading ht he ⟨g, hg, .inr hprocessor⟩
    | ok processor =>
      have hn : σ.model = none := hl.model_eq_none (loadingStanding_eq hp)
      exact h.publish ht he hn (.parts hf hg hengine hprocessor) _
  | generating m call =>
    obtain ⟨hm, text, q, he, hk, hcall⟩ := hcourse
    rw [Service.answer, hcall]
    have hend : (Performance.speech [m.speech text.text q]).ending m =
        .spoken (m.utterance text.text q) := LoadedModel.ending_speech hk
    rw [finishGenerating, hend]
    exact h.enter ht (.ended _) (.uttered he hm) σ.loading _ (Slot.closed_release σ.gate t)
  | _ => exact h

theorem abandon (h : σ.OnCourse around orders) (t : Nat) (p : Phase (s.backend search)) :
    (σ.abandon t p).OnCourse around orders := by
  cases p with
  | awaitingGate => exact h.forget t σ.loading _ (Slot.closed_leave σ.gate t)
  | generating => exact h.forget t σ.loading _ (Slot.closed_release σ.gate t)
  | awaitingModel => exact h.forget t _ σ.gate rfl
  | loadingEngine => exact h.forget t _ σ.gate rfl
  | loadingProcessor => exact h.forget t _ σ.gate rfl
  | _ => exact h.forget t σ.loading σ.gate rfl

/-- **One step.** Whatever the surroundings allow keeps a service on course. -/
theorem step (h : σ.OnCourse around orders) (hl : σ.LoadSound)
    (e : ServiceEvent (s.backend search)) (he : around.Allow e) :
    (σ.step e).OnCourse around (σ.note orders e) := by
  cases e with
  | request t r =>
    rw [Service.step, note]
    split
    · exact h
    · exact h.newcomer (.speak r) rfl
  | summon t =>
    rw [Service.step, note]
    split
    · exact h
    · exact h.newcomer .load rfl
  | advance t =>
    cases hp : σ.phase? t with
    | none =>
      rw [Service.step, withTask, hp]
      exact h
    | some p =>
      rw [step_advance hp]
      exact h.advance hp
  | answer t =>
    cases hp : σ.phase? t with
    | none =>
      rw [Service.step, withTask, hp]
      exact h
    | some p =>
      rw [step_answer hp]
      exact h.answer hl hp
  | cancel t =>
    cases hp : σ.phase? t with
    | none =>
      rw [Service.step, withTask, hp]
      exact h
    | some p =>
      rw [step_cancel hp]
      exact h.abandon t p
  | close => exact ⟨h.settings_eq, h.files, fun _ => he, h.loaded, h.phases⟩
  | change w => exact ⟨h.settings_eq, he, h.closing, h.loaded, h.phases⟩

/-- **Every run.** A service stays on course as long as its surroundings allow what happens. -/
theorem run (h : σ.OnCourse around orders) (hl : σ.LoadSound)
    (es : List (ServiceEvent (s.backend search))) (hes : ∀ e ∈ es, around.Allow e) :
    (σ.run es).OnCourse around (σ.notes orders es) := by
  induction es generalizing σ orders with
  | nil => exact h
  | cons e es ih =>
    obtain ⟨he, hrest⟩ := List.forall_mem_cons.mp hes
    exact ih (h.step hl e he) (hl.step e) hrest

end OnCourse

end Service

end SpeechService
