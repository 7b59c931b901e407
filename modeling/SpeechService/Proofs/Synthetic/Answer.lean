import SpeechService.Proofs.Http.Idle
import SpeechService.Proofs.Synthetic.Course

/-!
# The answer to a request

What a service with the synthetic backend answers a request that it serves on its own: the text is
looked at first, then the model, which may have to be loaded, then the gate, then the voice. The
answer depends on nothing else (`Settings.answer`), and a request that is alone finishes with it
(`Service.finishes_arrived`).
-/

namespace SpeechService

namespace Settings

variable (s : Settings) (search : DeviceSearch)

/-- The model that a request finds or loads. -/
def modelFor (σ : Service (s.backend search)) :
    Except EngineError (LoadedModel (s.backend search)) :=
  match σ.model with
  | some m => .ok m
  | none => s.loadModel search σ.world

/-- What is said at the gate and behind it. -/
def answerAtGate (closed : Bool) (m : LoadedModel (s.backend search)) (text : SpokenText)
    (p : Parameters) : Except SynthesisError Clip :=
  if closed then .error .gateClosed else m.utterance text.text p

/-- What is said once the model is there or not. -/
def answerAfterLoading (closed : Bool) (text : SpokenText) (p : Parameters) :
    Except EngineError (LoadedModel (s.backend search)) → Except SynthesisError Clip
  | .error x => .error (.ofLoad x)
  | .ok m => s.answerAtGate search closed m text p

/-- The **answer** to a request. -/
def answer (σ : Service (s.backend search)) (r : Request) : Except SynthesisError Clip :=
  match SpokenText.parse s.textMaxChars r.text with
  | .error e => .error (.ofText e)
  | .ok text =>
    s.answerAfterLoading search σ.gate.closed text (s.defaults.resolve r) (s.modelFor search σ)

variable {s search}

/-- The answer does not depend on the tasks. -/
theorem answer_enter (σ : Service (s.backend search)) (t : Nat) (p : Phase (s.backend search))
    (r : Request) : s.answer search (σ.enter t p) r = s.answer search σ r := by
  have hmodel : (σ.enter t p).model = σ.model := rfl
  have hworld : (σ.enter t p).world = σ.world := rfl
  have hgate : (σ.enter t p).gate = σ.gate := rfl
  rw [answer, answer, modelFor, modelFor, hmodel, hworld, hgate]

end Settings

namespace Service

open Session (Finishes)

variable {s : Settings} {search : DeviceSearch} {σ : Service (s.backend search)} {t : Nat}
  {m : LoadedModel (s.backend search)} {text : SpokenText} {p : Parameters}

/-- The last step of a task that goes on by itself. -/
private theorem finishes_last {q : Phase (s.backend search)} {x : Ending (s.backend search)}
    (σ' : Service (s.backend search)) (hq : σ.phase? t = some q) (hl : q.standsInLine = false)
    (hd : q.delay? = none) (hend : q.ending? = none) (n : Nat)
    (hstep : σ.step (.advance t) = σ'.enter t (.ended x)) :
    ∃ after, Finishes t x after (n + 1) σ := by
  have hx : (σ.step (.advance t)).phase? t = some (.ended x) := by
    rw [hstep, phase?_enter_self]
  exact ⟨_, .advance hq hl hd hend hx rfl (.ended n hx)⟩

/-- A task that generates. -/
theorem finishes_generating {call : Call Performance}
    (hp : σ.phase? t = some (.generating m call)) :
    ∃ after, Finishes t (call.result.ending m) after 1 σ := by
  have hx : (σ.step (.answer t)).phase? t = some (.ended (call.result.ending m)) := by
    rw [step_answer hp]
    exact phase?_enter_self _ t _
  exact ⟨_, .answer hp rfl rfl hx rfl (.ended 0 hx)⟩

/-- A task that has the model. -/
theorem finishes_equipped (ha : σ.Alone t) (hm : m.Coherent)
    (hp : σ.phase? t = some (.equipped m text p)) :
    ∃ after, Finishes t (.spoken (s.answerAtGate search σ.gate.closed m text p)) after 2 σ := by
  rw [Settings.answerAtGate]
  cases hclosed : σ.gate.closed with
  | true =>
    have hask : σ.gate.ask t = (σ.gate, .refused) := by rw [Slot.ask, if_pos hclosed]
    refine finishes_last σ hp rfl rfl rfl 1 ?_
    rw [step_advance hp, Service.advance, hask]
    rfl
  | false =>
    have hfree := ha.gate_free (gateStanding_eq hp)
    have hask : σ.gate.ask t = ({ σ.gate with tenure := .owned t }, .admitted) := by
      simp [Slot.ask, hclosed, hfree]
    have hstep : σ.step (.advance t) =
        { σ with gate := { σ.gate with tenure := .owned t } }.startGenerating t m text p := by
      rw [step_advance hp, Service.advance, hask, heedGate]
    cases hk : m.reader.knows p.voice with
    | false =>
      rw [startGenerating_of_not_knows hk] at hstep
      exact finishes_last _ hp rfl rfl rfl 1 hstep
    | true =>
      rw [startGenerating_of_knows hm hk] at hstep
      have hq : (σ.step (.advance t)).phase? t =
          some (.generating m ⟨s.synthetic.latencyMs, .speech [m.speech text.text p]⟩) := by
        rw [hstep, phase?_enter_self]
      obtain ⟨after, hafter⟩ := finishes_generating hq
      have hend : (Performance.speech [m.speech text.text p]).ending m =
          .spoken (m.utterance text.text p) := LoadedModel.ending_speech hk
      rw [hend] at hafter
      exact ⟨after, .advance hp rfl rfl rfl hq rfl hafter⟩

/-- A call of the loader fails. -/
private theorem finishes_failed {q : Phase (s.backend search)} {x : EngineError}
    (hp : σ.phase? t = some q) (hl : q.standsInLine = false) (hd : q.delay?.isSome = true)
    (n : Nat) (hstep : σ.step (.answer t) = σ.failLoading t (.speak text p) x) :
    ∃ after, Finishes t (.spoken (.error (.ofLoad x))) after (n + 1) σ := by
  have hx : (σ.step (.answer t)).phase? t = some (.ended (.spoken (.error (.ofLoad x)))) := by
    rw [hstep]
    exact phase?_enter_self _ t _
  exact ⟨_, .answer hp hl hd hx rfl (.ended n hx)⟩

/-- A task that loads the processor. -/
private theorem finishes_loadingProcessor (ha : σ.Alone t) {engine : SyntheticEngine} {delay : Nat}
    {result : Except EngineError SyntheticProcessor} (he : engine.device = s.settled search)
    (hp : σ.phase? t = some (.loadingProcessor (.speak text p) (s.settled search) engine.prepare
      ⟨delay, result⟩)) :
    ∃ after, Finishes t (.spoken (s.answerAfterLoading search σ.gate.closed text p
      (result.map (s.model search engine)))) after 3 σ := by
  cases result with
  | error x => exact finishes_failed hp rfl rfl 2 (step_answer hp)
  | ok processor =>
    have hq : (σ.step (.answer t)).phase? t =
        some (.equipped (s.model search engine processor) text p) := by
      rw [step_answer hp]
      exact phase?_enter_self _ t _
    have hcoherent : (s.model search engine processor).Coherent := ⟨rfl, he⟩
    have hnext := ha.step (e := .answer t) (by simp [ServiceEvent.task?])
    have hgate : (σ.step (.answer t)).gate = σ.gate := by
      rw [step_answer hp]
      rfl
    obtain ⟨after, hafter⟩ := finishes_equipped hnext hcoherent hq
    rw [hgate] at hafter
    exact ⟨after, .answer hp rfl rfl hq rfl hafter⟩

/-- A task that loads the engine. -/
private theorem finishes_loadingEngine (ha : σ.Alone t) (hs : σ.settings = s.service)
    (hp : σ.phase? t = some (.loadingEngine (.speak text p) (s.settled search)
      ⟨0, s.loadEngine search σ.world⟩)) :
    ∃ after, Finishes t (.spoken (s.answerAfterLoading search σ.gate.closed text p
      (s.loadModel search σ.world))) after 4 σ := by
  have hstep : σ.step (.answer t) =
      σ.takeEngine t (.speak text p) (s.settled search) (s.loadEngine search σ.world) :=
    step_answer hp
  cases hengine : s.loadEngine search σ.world with
  | error x =>
    rw [hengine] at hstep
    rw [Settings.loadModel_of_error hengine]
    exact finishes_failed hp rfl rfl 3 hstep
  | ok engine =>
    rw [hengine] at hstep
    have htake := hstep.trans (takeEngine_ok hs t (.speak text p) (s.settled search) engine)
    have hq : (σ.step (.answer t)).phase? t =
        some (.loadingProcessor (.speak text p) (s.settled search) engine.prepare
          ⟨0, s.loadProcessor σ.world⟩) := by
      rw [htake, phase?_enter_self]
    have hgate : (σ.step (.answer t)).gate = σ.gate := by
      rw [htake]
      rfl
    have hnext := ha.step (e := .answer t) (by simp [ServiceEvent.task?])
    obtain ⟨after, hafter⟩ :=
      finishes_loadingProcessor hnext (Settings.device_of_loadEngine hengine) hq
    rw [hgate, ← Settings.loadModel_of_ok hengine] at hafter
    exact ⟨after, .answer hp rfl rfl hq rfl hafter⟩

/-- A task whose text is accepted. -/
private theorem finishes_accepted (ha : σ.Alone t) (hs : σ.settings = s.service)
    (hm : ∀ m, σ.model = some m → m.Coherent)
    (hp : σ.phase? t = some (.accepted (.speak text p))) :
    ∃ after, Finishes t (.spoken (s.answerAfterLoading search σ.gate.closed text p
      (s.modelFor search σ))) after 5 σ := by
  rw [Settings.modelFor]
  cases hmodel : σ.model with
  | some m =>
    have hstep : σ.step (.advance t) = σ.enter t (.equipped m text p) := by
      rw [step_advance hp, Service.advance, seekModel, hmodel]
      rfl
    have hq : (σ.step (.advance t)).phase? t = some (.equipped m text p) := by
      rw [hstep, phase?_enter_self]
    have hnext := ha.step (e := .advance t) (by simp [ServiceEvent.task?])
    obtain ⟨after, hafter⟩ := finishes_equipped hnext (hm m hmodel) hq
    rw [show (σ.step (.advance t)).gate = σ.gate by rw [hstep]; rfl] at hafter
    exact ⟨after, .advance hp rfl rfl rfl hq rfl (hafter.mono (by omega))⟩
  | none =>
    -- Nobody else could have the slot, so that the task loads the model itself.
    have hclosed : σ.loading.closed = false := by rw [ha.load.closed_eq, hmodel]; rfl
    have hfree := ha.loading_free (loadingStanding_eq hp)
    have hask : σ.loading.ask t = ({ σ.loading with tenure := .owned t }, .admitted) := by
      simp [Slot.ask, hclosed, hfree]
    have hstep : σ.step (.advance t) =
        { σ with loading := { σ.loading with tenure := .owned t } }.startLoading t
          (.speak text p) := by
      rw [step_advance hp, Service.advance, seekModel, hask]
      simp only [hmodel, heedLoading]
    have hsettings : (σ.step (.advance t)).settings = s.service := (settings_step ..).trans hs
    have hworld : (σ.step (.advance t)).world = σ.world := by rw [hstep]; rfl
    have hgate : (σ.step (.advance t)).gate = σ.gate := by rw [hstep]; rfl
    have hq : (σ.step (.advance t)).phase? t = some (.loadingEngine (.speak text p)
        (s.settled search) ⟨0, s.loadEngine search (σ.step (.advance t)).world⟩) := by
      rw [hworld, hstep, startLoading, hs]
      exact phase?_enter_self _ t _
    have hnext := ha.step (e := .advance t) (by simp [ServiceEvent.task?])
    obtain ⟨after, hafter⟩ := finishes_loadingEngine hnext hsettings hq
    rw [hworld, hgate] at hafter
    exact ⟨after, .advance hp rfl rfl rfl hq rfl hafter⟩

/-- A task whose text is refused ends at once, and nothing else is done. -/
theorem step_refused {B : Backend} {σ : Service B} (hs : σ.settings = s.service) {r : Request}
    (hp : σ.phase? t = some (.arrived r)) {e : TextError}
    (he : SpokenText.parse s.textMaxChars r.text = .error e) :
    σ.step (.advance t) = σ.enter t (.ended (.spoken (.error (.ofText e)))) := by
  have hmax : σ.settings.textMaxChars = s.textMaxChars := by rw [hs]; rfl
  rw [step_advance hp, Service.advance, accept, hmax, he]

theorem finishes_refused (hs : σ.settings = s.service) {r : Request}
    (hp : σ.phase? t = some (.arrived r)) {e : TextError}
    (he : SpokenText.parse s.textMaxChars r.text = .error e) :
    Finishes t (.spoken (.error (.ofText e)))
      (σ.enter t (.ended (.spoken (.error (.ofText e))))) 1 σ := by
  have hstep := step_refused hs hp he
  have hq := phase?_enter_self σ t (.ended (.spoken (.error (.ofText e))))
  refine .advance hp rfl rfl rfl (hstep ▸ hq) rfl ?_
  rw [hstep]
  exact .ended 0 hq

/-- **Alone.** A request that a service serves on its own finishes with its answer. -/
theorem finishes_arrived (ha : σ.Alone t) (hs : σ.settings = s.service)
    (hm : ∀ m, σ.model = some m → m.Coherent) {r : Request}
    (hp : σ.phase? t = some (.arrived r)) :
    ∃ after, Finishes t (.spoken (s.answer search σ r)) after 6 σ := by
  have hmax : σ.settings.textMaxChars = s.textMaxChars := by rw [hs]; rfl
  have hdefaults : σ.settings.defaults = s.defaults := by rw [hs]; rfl
  rw [Settings.answer]
  cases hparse : SpokenText.parse s.textMaxChars r.text with
  | error e => exact ⟨_, (finishes_refused hs hp hparse).mono (by omega)⟩
  | ok text =>
    have hstep : σ.step (.advance t) =
        σ.enter t (.accepted (.speak text (s.defaults.resolve r))) := by
      rw [step_advance hp, Service.advance, accept, hmax, hparse, hdefaults]
    have hq : (σ.step (.advance t)).phase? t =
        some (.accepted (.speak text (s.defaults.resolve r))) := by
      rw [hstep, phase?_enter_self]
    have hnext := ha.step (e := .advance t) (by simp [ServiceEvent.task?])
    have hsettings : (σ.step (.advance t)).settings = s.service := (settings_step ..).trans hs
    have hmodel : (σ.step (.advance t)).model = σ.model := by rw [hstep]; rfl
    obtain ⟨after, hafter⟩ := finishes_accepted hnext hsettings (hmodel ▸ hm) hq
    rw [Settings.modelFor, hmodel, show (σ.step (.advance t)).world = σ.world by rw [hstep]; rfl,
      show (σ.step (.advance t)).gate = σ.gate by rw [hstep]; rfl] at hafter
    exact ⟨after, .advance hp rfl rfl rfl hq rfl hafter⟩

end Service

end SpeechService
