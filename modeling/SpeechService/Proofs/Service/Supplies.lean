import SpeechService.Assembly
import SpeechService.Proofs.Service.Dealings
import SpeechService.Proofs.Settings.Usable

/-!
# What the model is supplied with

The parameters of a request are resolved when it is accepted, and from then on its task has them on
it until the processor and the engine are called for them (`Moment.madeFor_of_mem_calls`). So what
holds of all parameters that the defaults resolve to holds of all that is ever asked of the model
(`Service.Supplied.run`). With settings that were loaded, nothing is asked of the model that is not
usable (`Settings.supplies_of_load`).
-/

namespace SpeechService

variable {B : Backend}

/-! ### Parameters on their way -/

/-- The parameters of an errand. -/
def Errand.parameters? : Errand → Option Parameters
  | .load => none
  | .speak _ q => some q

/-- The parameters that a task has on it, after they were resolved and before the model is called
for them. -/
def Phase.parameters? : Phase B → Option Parameters
  | .accepted errand => errand.parameters?
  | .awaitingModel errand => errand.parameters?
  | .loadingEngine errand _ _ => errand.parameters?
  | .loadingProcessor errand _ _ _ => errand.parameters?
  | .equipped _ _ q => some q
  | .awaitingGate _ _ q => some q
  | .arrived _ | .generating _ _ | .ended _ => none

/-- A call that is **made for** some parameters. -/
def SpeechCall.MadeFor (q : Parameters) : SpeechCall B → Prop
  | .encode _ _ voice _ => voice = q.voice
  | .generate _ _ options => options = q.options

theorem Phase.parameters?_withModel (errand : Errand) (m : LoadedModel B) :
    (errand.withModel m).parameters? = errand.parameters? := by
  cases errand <;> rfl

theorem Phase.parameters?_failed (errand : Errand) (x : EngineError) :
    (Phase.ended (errand.failed x) : Phase B).parameters? = none := rfl

namespace Service

/-- A service whose tasks are **supplied** with parameters of a kind. -/
def Supplied (P : Parameters → Prop) (s : Service B) : Prop :=
  ∀ t p, s.phase? t = some p → ∀ q ∈ p.parameters?, P q

namespace Supplied

variable {P : Parameters → Prop} {s s' : Service B} {t : Nat} {p : Phase B}

/-- A task enters a phase. -/
theorem enter (h : s.Supplied P) (htasks : s'.tasks = s.tasks) (hp : ∀ q ∈ p.parameters?, P q) :
    (s'.enter t p).Supplied P := by
  intro u p' hp'
  by_cases hu : u = t
  · subst hu
    rw [phase?_enter_self] at hp'
    exact Option.some.inj hp' ▸ hp
  · rw [phase?_enter_of_ne s' p hu, phase?, htasks] at hp'
    exact h u p' hp'

/-- A task enters a phase in which it has no parameters on it. -/
theorem enter_none (h : s.Supplied P) (htasks : s'.tasks = s.tasks) (hp : p.parameters? = none) :
    (s'.enter t p).Supplied P := by
  refine h.enter htasks fun q hq => ?_
  rw [hp] at hq
  exact nomatch hq

theorem enterWithModel (h : s.Supplied P) (htasks : s'.tasks = s.tasks) {errand : Errand}
    (hq : ∀ q ∈ errand.parameters?, P q) (m : LoadedModel B) :
    (s'.enter t (errand.withModel m)).Supplied P := by
  refine h.enter htasks ?_
  rwa [Phase.parameters?_withModel]

/-- A task is forgotten. -/
theorem forget (h : s.Supplied P) (htasks : s'.tasks = s.tasks) : (s'.forget t).Supplied P := by
  intro u p' hp'
  by_cases hu : u = t
  · subst hu
    rw [phase?_forget_self] at hp'
    exact nomatch hp'
  · rw [phase?_forget_of_ne s' hu, phase?, htasks] at hp'
    exact h u p' hp'

private theorem heedLoading (h : s.Supplied P) {errand : Errand}
    (hq : ∀ q ∈ errand.parameters?, P q) (told : Slot Nat × Admission) :
    (s.heedLoading t errand told).Supplied P := by
  obtain ⟨loading, admission⟩ := told
  cases admission with
  | admitted => exact h.enter rfl hq
  | waiting => exact h.enter rfl hq
  | refused =>
    rw [Service.heedLoading]
    split
    · exact h.enterWithModel rfl hq _
    · exact h

private theorem heedGate (h : s.Supplied P) {m : LoadedModel B} {text : SpokenText}
    {q : Parameters} (hq : P q) (told : Slot Nat × Admission) :
    (s.heedGate t m text q told).Supplied P := by
  obtain ⟨gate, admission⟩ := told
  cases admission with
  | waiting =>
    refine h.enter rfl ?_
    rintro _ ⟨⟩
    exact hq
  | refused => exact h.enter_none rfl rfl
  | admitted =>
    rw [Service.heedGate, startGenerating]
    split
    split <;> exact h.enter_none rfl rfl

private theorem advance (hP : ∀ r, P (s.settings.defaults.resolve r)) (h : s.Supplied P)
    (hp : s.phase? t = some p) : (s.advance t p).Supplied P := by
  have hq := h t p hp
  cases p with
  | arrived r =>
    rw [Service.advance, accept]
    split
    · exact h.enter_none rfl rfl
    · refine h.enter rfl ?_
      rintro _ ⟨⟩
      exact hP r
  | accepted errand =>
    rw [Service.advance, seekModel]
    split
    · exact h.enterWithModel rfl hq _
    · exact h.heedLoading hq _
  | awaitingModel errand => exact h.heedLoading hq _
  | equipped m text q => exact h.heedGate (hq q rfl) _
  | awaitingGate m text q => exact h.heedGate (hq q rfl) _
  | _ => exact h

private theorem answer (h : s.Supplied P) (hp : s.phase? t = some p) :
    (s.answer t p).Supplied P := by
  have hq := h t p hp
  cases p with
  | loadingEngine errand device call =>
    show (s.takeEngine t errand device call.result).Supplied P
    cases call.result with
    | error x => exact h.enter_none rfl (Phase.parameters?_failed errand x)
    | ok engine => exact h.enter rfl hq
  | loadingProcessor errand device engine call =>
    show (s.takeProcessor t errand device engine call.result).Supplied P
    cases call.result with
    | error x => exact h.enter_none rfl (Phase.parameters?_failed errand x)
    | ok processor => exact h.enterWithModel rfl hq _
  | generating m call => exact h.enter_none rfl rfl
  | _ => exact h

/-- **One step.** Parameters come in with requests only, and nothing is done to them. -/
theorem step (hP : ∀ r, P (s.settings.defaults.resolve r)) (h : s.Supplied P)
    (e : ServiceEvent B) : (s.step e).Supplied P := by
  have htask {t : Nat} {f : Phase B → Service B}
      (hf : ∀ p, s.phase? t = some p → (f p).Supplied P) : (s.withTask t f).Supplied P := by
    rw [withTask]
    split
    · next p hp => exact hf p hp
    · exact h
  have hstart {t : Nat} {p : Phase B} (hp : p.parameters? = none) :
      (if (s.phase? t).isSome then s else s.enter t p).Supplied P := by
    split
    · exact h
    · exact h.enter_none rfl hp
  cases e with
  | request t r => exact hstart rfl
  | summon t => exact hstart rfl
  | advance t => exact htask fun p hp => advance hP h hp
  | answer t => exact htask fun p hp => h.answer hp
  | cancel t =>
    refine htask fun p hp => ?_
    cases p <;> exact h.forget rfl
  | close => exact h
  | change w => exact h

/-- **Every moment** of a run. -/
theorem of_mem_moments (hP : ∀ r, P (s.settings.defaults.resolve r)) (h : s.Supplied P)
    {es : List (ServiceEvent B)} {x : Moment B} (hx : x ∈ s.moments es) : x.service.Supplied P := by
  have hinv : x.service.settings = s.settings ∧ x.service.Supplied P := by
    refine Service.of_mem_moments (P := fun s' => s'.settings = s.settings ∧ s'.Supplied P) ?_
      ⟨rfl, h⟩ hx
    rintro s' e ⟨hs, h'⟩
    exact ⟨(settings_step s' e).trans hs, h'.step (by rwa [hs]) e⟩
  exact hinv.2

end Supplied

end Service

/-! ### Calls -/

theorem Moment.calls_eq {x : Moment B.transcribed} {new : List (SpeechCall B)}
    (h : x.after.transcript = x.service.transcript ++ new) : x.calls = new := by
  rw [calls, h, List.drop_left]

/-- **What calls are made for.** The new calls of a moment are made for the parameters that the task
has on it. -/
theorem Moment.madeFor_of_mem_calls {x : Moment B.transcribed} {t : Nat}
    (he : x.event.task? = some t) {call : SpeechCall B} (hcall : call ∈ x.calls) :
    ∃ p q, x.service.phase? t = some p ∧ p.parameters? = some q ∧ call.MadeFor q := by
  have hadmits : x.Admits t := by
    by_contra hn
    have hsame : x.after.transcript = x.service.transcript := Service.transcript_step he hn
    rw [calls, hsame, List.drop_length] at hcall
    exact absurd hcall List.not_mem_nil
  -- Who is let in has its text made into inputs, and then perhaps the engine called.
  have hmade {m : LoadedModel B.transcribed} {text : SpokenText} {q : Parameters}
      {told : Slot Nat × Admission} (ha : told.2 = .admitted)
      (hstep : x.after = x.service.heedGate t m text q told) : call.MadeFor q := by
    obtain ⟨gate, admission⟩ := told
    obtain rfl : admission = .admitted := ha
    rw [Service.heedGate] at hstep
    rcases hencode : B.encode x.service.world.1 m.processor text.text q.voice with
      ⟨w, cause | inputs⟩
    · have hnew : x.calls =
          [SpeechCall.encode (B := B) m.processor text.text q.voice (.error cause)] := by
        refine calls_eq ?_
        rw [hstep, Service.startGenerating_of_error (s := { x.service with gate }) hencode]
        rfl
      rw [hnew] at hcall
      rw [List.mem_singleton.mp hcall]
      exact rfl
    · obtain ⟨w', waited, hstart⟩ :=
        Service.startGenerating_of_ok (s := { x.service with gate }) (t := t) hencode
      have hnew : x.calls = [SpeechCall.encode (B := B) m.processor text.text q.voice (.ok inputs),
          .generate m.engine (inputs.toDevice m.device) q.options] := by
        refine calls_eq ?_
        rw [hstep, hstart]
        rfl
      rw [hnew] at hcall
      obtain rfl | hcall := List.mem_cons.mp hcall
      · exact rfl
      · rw [List.mem_singleton.mp hcall]
        exact rfl
  cases hadmits with
  | asks hp ha => exact ⟨_, _, hp, rfl, hmade ha (Service.step_advance hp)⟩
  | looks hp ha => exact ⟨_, _, hp, rfl, hmade ha (Service.step_advance hp)⟩

/-- **Every run.** All calls are made for parameters of the kind that the defaults resolve to. -/
theorem Service.Supplied.run {P : Parameters → Prop} {s : Service B.transcribed}
    (hP : ∀ r, P (s.settings.defaults.resolve r)) (h : s.Supplied P)
    (es : List (ServiceEvent B.transcribed)) (t : Nat) :
    ∀ call ∈ callsOf t (s.moments es), ∃ q, P q ∧ call.MadeFor q := by
  intro call hcall
  obtain ⟨x, hx, hcall⟩ := List.mem_flatMap.mp hcall
  obtain ⟨hx, he⟩ := List.mem_filter.mp hx
  obtain ⟨p, q, hp, hq, hmade⟩ := Moment.madeFor_of_mem_calls (of_decide_eq_true he) hcall
  exact ⟨q, of_mem_moments hP h hx t p hp q hq, hmade⟩

/-! ### Loaded settings -/

namespace Settings

/-- Settings with which nothing but what is usable reaches the engine. -/
structure Supplies (s : Settings) : Prop where
  isUsable : s.IsUsable
  resolves : ∀ r, s.defaults.Resolves r (s.defaults.resolve r)
  /-- In every run of a service of these settings, whatever backend it has, the processor and the
  engine are called for usable parameters. -/
  calls : ∀ (B : Backend) (world : B.World) (es : List (ServiceEvent B.transcribed)) (t : Nat),
    ∀ call ∈ callsOf t ((Service.transcribing s.service world).moments es),
      ∃ q : Parameters, q.IsUsable ∧ call.MadeFor q

/-- **Usable parameters only.** Whatever the files and the environment say, and whatever is asked of
the service afterwards, nothing reaches the engine that it cannot use. -/
theorem supplies_of_load (files : Files) (environment : List (String × String))
    (path : Option String) (s : Settings) (h : load files environment path = .ok s) :
    s.Supplies := by
  have husable := usable_of_load h
  refine ⟨husable, husable.resolves, fun B world es t => ?_⟩
  -- Nobody has come yet.
  have hnew : (Service.transcribing s.service world).Supplied Parameters.IsUsable :=
    fun t p hp => nomatch hp
  exact hnew.run (fun r => (husable.resolves r).isUsable) es t

/-- An environment in which some values can be used and others cannot. -/
def mixedValues : List (String × String) :=
  [("KUGELAUDIO_DEFAULT_VOICE", "  alice "), ("KUGELAUDIO_DEFAULT_CFG_SCALE", "-inf"),
    ("KUGELAUDIO_DEFAULT_MAX_TOKENS", "99999999999"), ("KUGELAUDIO_MODEL_ID", " ")]

/-- The settings that can be used are made of it. -/
theorem supplies_of_load_mixedValues : ∃ s, load {} mixedValues none = .ok s ∧ s.Supplies ∧
    s.modelId = defaultModelId ∧ s.defaults = ⟨some "alice", .ofNat .double 3, Text.max32⟩ := by
  have hload : (load {} mixedValues none).toOption.map (fun s => (s.modelId, s.defaults))
      = some (defaultModelId, ⟨some "alice", .ofNat .double 3, Text.max32⟩) := by
    decide +kernel
  cases hs : load {} mixedValues none with
  | error cause =>
    rw [hs] at hload
    exact nomatch hload
  | ok s =>
    rw [hs] at hload
    obtain ⟨hmodel, hdefaults⟩ := Prod.mk.inj (Option.some.inj hload)
    exact ⟨s, rfl, supplies_of_load {} mixedValues none s hs, hmodel, hdefaults⟩

end Settings

end SpeechService
