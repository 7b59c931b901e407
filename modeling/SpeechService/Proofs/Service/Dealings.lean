import Mathlib.Data.List.Induction
import SpeechService.Transcript
import SpeechService.Proofs.Service.SingleFlight

/-!
# The dealings of a request

What a request has had done by the processor and the engine of the model, at every moment from its
arrival to its end, whatever other tasks do in between. Its **calls** are those that are new in the
transcript after the moments of its own task (`callsOf`).

`Service.Account` tells for every phase what has gone before it, and `Service.Account.step` that an
event of the task leads from one account to the next. So a request that ends has made no calls, or
one call to the processor that failed, or one that succeeded and one to the engine
(`Service.dealings_of_ended`).
-/

namespace SpeechService

variable {B : Backend}

/-! ### What happens at a moment -/

namespace Moment

/-- The calls to the model that are new after a moment. -/
def calls (x : Moment B.transcribed) : List (SpeechCall B) :=
  x.after.transcript.drop x.service.transcript.length

/-- A task is told of the model. -/
def Equips (x : Moment B) (t : Nat) : Prop :=
  ∃ m text q, x.after.model = some m ∧ x.after.phase? t = some (.equipped m text q)

/-- A task is let in at the gate. -/
inductive Admits (t : Nat) : Moment B → Prop where
  | asks {s m text q} (hp : s.phase? t = some (.equipped m text q))
    (ha : (s.gate.ask t).2 = .admitted) : Admits t ⟨s, .advance t⟩
  | looks {s m text q} (hp : s.phase? t = some (.awaitingGate m text q))
    (ha : (s.gate.look t).2 = .admitted) : Admits t ⟨s, .advance t⟩

end Moment

/-- The **calls of a task** among some moments. -/
def callsOf (t : Nat) (ms : List (Moment B.transcribed)) : List (SpeechCall B) :=
  (ms.filter (·.event.task? = some t)).flatMap Moment.calls

/-! ### Calls -/

section Calls

variable {s : Service B.transcribed} {t : Nat} {p : Phase B.transcribed}
  {e : ServiceEvent B.transcribed} {ms : List (Moment B.transcribed)}

/-- What others add to the transcript does not count. -/
theorem callsOf_concat_of_ne (he : e.task? ≠ some t) :
    callsOf t (ms ++ [⟨s, e⟩]) = callsOf t ms := by
  have hnone : [(⟨s, e⟩ : Moment B.transcribed)].filter (·.event.task? = some t) = [] := by
    simp [he]
  rw [callsOf, List.filter_append, hnone, List.append_nil, callsOf]

/-- What a task adds to the transcript are its calls. -/
theorem callsOf_concat (he : e.task? = some t) (new : List (SpeechCall B))
    (hnew : (s.step e).transcript = s.transcript ++ new) :
    callsOf t (ms ++ [⟨s, e⟩]) = callsOf t ms ++ new := by
  have hone : [(⟨s, e⟩ : Moment B.transcribed)].filter (·.event.task? = some t) = [⟨s, e⟩] := by
    simp [he]
  have hcalls : Moment.calls ⟨s, e⟩ = new := by
    rw [Moment.calls, Moment.after, hnew, List.drop_left]
  rw [callsOf, List.filter_append, hone, List.flatMap_append, List.flatMap_singleton, hcalls,
    callsOf]

/-- A task that adds nothing to the transcript makes no calls. -/
theorem callsOf_concat_of_eq (he : e.task? = some t)
    (hsame : (s.step e).transcript = s.transcript) :
    callsOf t (ms ++ [⟨s, e⟩]) = callsOf t ms := by
  rw [callsOf_concat he [] (by rw [hsame, List.append_nil]), List.append_nil]

namespace Service

/-- Who is not let in at the gate makes no calls. -/
theorem transcript_heedGate {m : LoadedModel B.transcribed} {text : SpokenText} {q : Parameters}
    {told : Slot Nat × Admission} (hn : told.2 ≠ .admitted) :
    (s.heedGate t m text q told).transcript = s.transcript := by
  obtain ⟨gate, admission⟩ := told
  cases admission with
  | admitted => exact absurd rfl hn
  | _ => rfl

theorem transcript_heedLoading (s : Service B.transcribed) (t : Nat) (errand : Errand)
    (told : Slot Nat × Admission) : (s.heedLoading t errand told).transcript = s.transcript := by
  obtain ⟨loading, admission⟩ := told
  cases admission with
  | refused =>
    rw [heedLoading]
    split <;> rfl
  | _ => rfl

private theorem transcript_advance (hp : s.phase? t = some p)
    (hn : ¬(⟨s, .advance t⟩ : Moment B.transcribed).Admits t) :
    (s.advance t p).transcript = s.transcript := by
  cases p with
  | accepted errand =>
    rw [advance, seekModel]
    split
    · rfl
    · exact transcript_heedLoading s t errand _
  | awaitingModel errand => exact transcript_heedLoading s t errand _
  | equipped m text q => exact transcript_heedGate fun ha => hn (.asks hp ha)
  | awaitingGate m text q => exact transcript_heedGate fun ha => hn (.looks hp ha)
  | _ => rfl

private theorem transcript_answer (s : Service B.transcribed) (t : Nat)
    (p : Phase B.transcribed) : (s.answer t p).transcript = s.transcript := by
  cases p with
  | loadingEngine errand device call =>
    show (s.takeEngine t errand device call.result).transcript = _
    cases call.result <;> rfl
  | loadingProcessor errand device engine call =>
    show (s.takeProcessor t errand device engine call.result).transcript = _
    cases call.result <;> rfl
  | _ => rfl

/-- **Silence.** A task makes no calls but at a moment at which it is let in. -/
theorem transcript_step (he : e.task? = some t)
    (hn : ¬(⟨s, e⟩ : Moment B.transcribed).Admits t) :
    (s.step e).transcript = s.transcript := by
  cases hp : s.phase? t with
  | none =>
    cases e with
    | close => rfl
    | change w => simp [ServiceEvent.task?] at he
    | _ =>
      cases he
      simp [step, withTask, hp, enter, transcript]
  | some p =>
    by_cases hc : e = .cancel t
    · rw [hc, step_cancel hp]
      cases p <;> rfl
    · obtain hstep | ⟨rfl, hstep⟩ | ⟨rfl, hstep⟩ := step_of_task hp he hc
      · rw [hstep]
      · rw [hstep]
        exact transcript_advance hp hn
      · rw [hstep]
        exact transcript_answer s t p

/-- A task is let in, and its text is refused by the processor. -/
theorem startGenerating_of_error {m : LoadedModel B.transcribed} {text : SpokenText}
    {q : Parameters} {w : B.World} {x : EngineError}
    (h : B.encode s.world.1 m.processor text.text q.voice = (w, .error x)) :
    s.startGenerating t m text q =
      { s with
        world := (w, s.transcript ++
          [SpeechCall.encode (B := B) m.processor text.text q.voice (.error x)])
        gate := s.gate.release t }.enter t (.ended (.spoken (.error (.ofEngine x)))) := by
  simp only [startGenerating, Backend.transcribed, h, transcript]

/-- A task is let in, and its engine is called. -/
theorem startGenerating_of_ok {m : LoadedModel B.transcribed} {text : SpokenText}
    {q : Parameters} {w : B.World} {inputs : Inputs}
    (h : B.encode s.world.1 m.processor text.text q.voice = (w, .ok inputs)) :
    ∃ w' call, s.startGenerating t m text q =
      { s with
        world := (w', s.transcript ++
          [SpeechCall.encode (B := B) m.processor text.text q.voice (.ok inputs),
            SpeechCall.generate (B := B) m.engine (inputs.toDevice m.device) q.options]) }.enter t
              (.generating m call) := by
  refine ⟨(B.generate w m.engine (inputs.toDevice m.device) q.options).1,
    (B.generate w m.engine (inputs.toDevice m.device) q.options).2, ?_⟩
  simp only [startGenerating, Backend.transcribed, h, transcript, List.append_assoc,
    List.singleton_append]

/-- A task that is let in has its text made into inputs, before all else. -/
theorem transcript_startGenerating (s : Service B.transcribed) (t : Nat)
    (m : LoadedModel B.transcribed) (text : SpokenText) (q : Parameters) :
    ∃ result rest, (s.startGenerating t m text q).transcript =
      s.transcript ++ .encode m.processor text.text q.voice result :: rest := by
  rcases hencode : B.encode s.world.1 m.processor text.text q.voice with ⟨w, x | inputs⟩
  · refine ⟨.error x, [], ?_⟩
    rw [startGenerating_of_error hencode]
    rfl
  · obtain ⟨w', call, hstart⟩ := startGenerating_of_ok (t := t) hencode
    refine ⟨.ok inputs, [.generate m.engine (inputs.toDevice m.device) q.options], ?_⟩
    rw [hstart]
    rfl

end Service

namespace Moment

variable {x : Moment B.transcribed}

/-- A task is let in when it goes on. -/
theorem Admits.event_eq (h : x.Admits t) : x.event = .advance t := by
  cases h <;> rfl

/-- A task that is let in calls the processor. -/
theorem Admits.encodes (h : x.Admits t) :
    ∃ processor text voice result, .encode processor text voice result ∈ x.calls := by
  have hnew {m : LoadedModel B.transcribed} {text : SpokenText} {q : Parameters}
      {told : Slot Nat × Admission} (ha : told.2 = .admitted)
      (hstep : x.after = x.service.heedGate t m text q told) :
      ∃ processor text voice result, .encode processor text voice result ∈ x.calls := by
    obtain ⟨gate, admission⟩ := told
    obtain rfl : admission = .admitted := ha
    obtain ⟨result, rest, hcalls⟩ :=
      Service.transcript_startGenerating { x.service with gate } t m text q
    have hadded : x.after.transcript = x.service.transcript
        ++ .encode m.processor text.text q.voice result :: rest := by
      rw [hstep]
      exact hcalls
    refine ⟨m.processor, text.text, q.voice, result, ?_⟩
    rw [calls, hadded, List.drop_left]
    exact List.mem_cons_self
  cases h with
  | asks hp ha => exact hnew ha (Service.step_advance hp)
  | looks hp ha => exact hnew ha (Service.step_advance hp)

end Moment

/-- **Admission.** The texts of a task are made into inputs at the moments at which it is let in,
and at no others. -/
theorem encode_mem_callsOf_iff :
    (∃ processor text voice result, .encode processor text voice result ∈ callsOf t ms) ↔
      ∃ x ∈ ms, x.Admits t := by
  constructor
  · rintro ⟨processor, text, voice, result, hmem⟩
    obtain ⟨x, hx, hcall⟩ := List.mem_flatMap.mp hmem
    obtain ⟨hx, he⟩ := List.mem_filter.mp hx
    refine ⟨x, hx, ?_⟩
    by_contra hn
    have hsame : x.after.transcript = x.service.transcript :=
      Service.transcript_step (by simpa using he) hn
    rw [Moment.calls, hsame, List.drop_length] at hcall
    exact absurd hcall List.not_mem_nil
  · rintro ⟨x, hx, hadmits⟩
    obtain ⟨processor, text, voice, result, hcall⟩ := hadmits.encodes
    refine ⟨processor, text, voice, result, List.mem_flatMap.mpr ⟨x, ?_, hcall⟩⟩
    refine List.mem_filter.mpr ⟨hx, ?_⟩
    simp [hadmits.event_eq, ServiceEvent.task?]

/-! ### Accounts -/

/-- A request whose task is at some moments is **ready** for the gate: its text can be spoken, and
the task was told of the model. -/
structure Ready (settings : ServiceSettings) (r : Request) (t : Nat)
    (ms : List (Moment B.transcribed)) (model : Option (LoadedModel B.transcribed))
    (m : LoadedModel B.transcribed) (text : SpokenText) : Prop where
  parsed : SpokenText.parse settings.textMaxChars r.text = .ok text
  published : model = some m
  equipped : ∃ x ∈ ms, x.Equips t

/-- The **dealings** of a request with the model. -/
inductive Dealings (settings : ServiceSettings) (r : Request) (t : Nat)
    (ms : List (Moment B.transcribed)) (model : Option (LoadedModel B.transcribed)) :
    List (SpeechCall B) → Prop where
  | nothing : Dealings settings r t ms model []
  /-- The processor refused the text. -/
  | refused {m text x} (ready : Ready settings r t ms model m text) :
    Dealings settings r t ms model
      [.encode m.processor text.text (settings.defaults.resolve r).voice (.error x)]
  /-- The engine was called with the inputs that the processor made. -/
  | performed {m text inputs} (ready : Ready settings r t ms model m text) :
    Dealings settings r t ms model
      [.encode m.processor text.text (settings.defaults.resolve r).voice (.ok inputs),
        .generate m.engine (inputs.toDevice m.device) (settings.defaults.resolve r).options]

/-- The **account** of a request in a phase: what was said and done before. -/
inductive Account (settings : ServiceSettings) (r : Request) (t : Nat)
    (ms : List (Moment B.transcribed)) (model : Option (LoadedModel B.transcribed)) :
    Phase B.transcribed → Prop where
  | arrived (calls : callsOf t ms = []) : Account settings r t ms model (.arrived r)
  | seeking {p text} (parsed : SpokenText.parse settings.textMaxChars r.text = .ok text)
    (seeks : p.seeking? = some (.speak text (settings.defaults.resolve r)))
    (calls : callsOf t ms = []) : Account settings r t ms model p
  | equipped {m text} (ready : Ready settings r t ms model m text) (calls : callsOf t ms = []) :
    Account settings r t ms model (.equipped m text (settings.defaults.resolve r))
  | awaitingGate {m text} (ready : Ready settings r t ms model m text)
    (calls : callsOf t ms = []) :
    Account settings r t ms model (.awaitingGate m text (settings.defaults.resolve r))
  | generating {m call} (dealings : Dealings settings r t ms model (callsOf t ms)) :
    Account settings r t ms model (.generating m call)
  | ended {x} (dealings : Dealings settings r t ms model (callsOf t ms)) :
    Account settings r t ms model (.ended x)

variable {settings : ServiceSettings} {r : Request}
  {model model' : Option (LoadedModel B.transcribed)} {ms' : List (Moment B.transcribed)}

theorem Ready.mono {m : LoadedModel B.transcribed} {text : SpokenText}
    (h : Ready settings r t ms model m text) (hm : ∀ m, model = some m → model' = some m)
    (hms : ∀ x ∈ ms, x ∈ ms') : Ready settings r t ms' model' m text where
  parsed := h.parsed
  published := hm m h.published
  equipped := by
    obtain ⟨x, hx, hequips⟩ := h.equipped
    exact ⟨x, hms x hx, hequips⟩

theorem Dealings.mono {calls : List (SpeechCall B)} (h : Dealings settings r t ms model calls)
    (hm : ∀ m, model = some m → model' = some m) (hms : ∀ x ∈ ms, x ∈ ms') :
    Dealings settings r t ms' model' calls := by
  cases h with
  | nothing => exact .nothing
  | refused ready => exact .refused (ready.mono hm hms)
  | performed ready => exact .performed (ready.mono hm hms)

namespace Dealings

variable {calls : List (SpeechCall B)}

/-- The engine is called at most once. -/
theorem countP_le_one (h : Dealings settings r t ms model calls) :
    calls.countP SpeechCall.isGenerate ≤ 1 := by
  cases h with
  | nothing => exact Nat.zero_le 1
  | refused ready => exact Nat.zero_le 1
  | performed ready => exact Nat.le_refl 1

/-- The engine is called exactly if the processor made inputs of the text. -/
theorem countP_eq_one_iff (h : Dealings settings r t ms model calls) :
    calls.countP SpeechCall.isGenerate = 1 ↔
      (∃ text, SpokenText.parse settings.textMaxChars r.text = .ok text) ∧
        (∃ x ∈ ms, x.Equips t) ∧
        ∃ processor text voice inputs, .encode processor text voice (.ok inputs) ∈ calls := by
  cases h with
  | nothing =>
    refine ⟨fun hone => absurd (show 0 = 1 from hone) (by decide), ?_⟩
    rintro ⟨-, -, processor, text, voice, inputs, hmem⟩
    exact absurd hmem List.not_mem_nil
  | refused ready =>
    refine ⟨fun hone => absurd (show 0 = 1 from hone) (by decide), ?_⟩
    rintro ⟨-, -, processor, text, voice, inputs, hmem⟩
    exact nomatch List.mem_singleton.mp hmem
  | performed ready =>
    refine ⟨fun _ => ⟨⟨_, ready.parsed⟩, ready.equipped, ?_⟩, fun _ => rfl⟩
    exact ⟨_, _, _, _, List.mem_cons_self⟩

/-- What the engine is given was made by the processor of the same model just before. -/
theorem eq_of_generate (h : Dealings settings r t ms model calls) {engine : B.Engine}
    {given : Inputs} {options : GenerateOptions}
    (hmem : .generate engine given options ∈ calls) :
    ∃ m text voice inputs, model = some m ∧ engine = m.engine ∧
      given = inputs.toDevice m.device ∧
      calls = [.encode m.processor text voice (.ok inputs), .generate engine given options] := by
  cases h with
  | nothing => exact absurd hmem List.not_mem_nil
  | refused ready => exact nomatch List.mem_singleton.mp hmem
  | @performed m text inputs ready =>
    obtain hmem | hmem := List.mem_cons.mp hmem
    · exact nomatch hmem
    · injection List.mem_singleton.mp hmem with hengine hgiven hoptions
      refine ⟨m, text.text, (settings.defaults.resolve r).voice, inputs, ready.published,
        hengine, hgiven, ?_⟩
      rw [hengine, hgiven, hoptions]

end Dealings

namespace Account

/-- An account stays true while others go on. -/
theorem mono (h : Account settings r t ms model p) (hm : ∀ m, model = some m → model' = some m)
    (hms : ∀ x ∈ ms, x ∈ ms') (hcalls : callsOf t ms' = callsOf t ms) :
    Account settings r t ms' model' p := by
  cases h with
  | arrived calls => exact .arrived (hcalls.trans calls)
  | seeking parsed seeks calls => exact .seeking parsed seeks (hcalls.trans calls)
  | equipped ready calls => exact .equipped (ready.mono hm hms) (hcalls.trans calls)
  | awaitingGate ready calls => exact .awaitingGate (ready.mono hm hms) (hcalls.trans calls)
  | generating dealings => exact .generating (hcalls ▸ dealings.mono hm hms)
  | ended dealings => exact .ended (hcalls ▸ dealings.mono hm hms)

/-- Nothing happens to the task. -/
private theorem idle (h : Account settings r t ms s.model p) (hp : s.phase? t = some p)
    (he : e.task? = some t) (hstep : s.step e = s) :
    ∃ p', (s.step e).phase? t = some p' ∧
      Account settings r t (ms ++ [⟨s, e⟩]) (s.step e).model p' := by
  have hcalls : callsOf t (ms ++ [⟨s, e⟩]) = callsOf t ms :=
    callsOf_concat_of_eq he (by rw [hstep])
  rw [hstep]
  exact ⟨p, hp, h.mono (fun _ hm => hm) (fun _ hx => List.mem_append_left _ hx) hcalls⟩

/-- A task that seeks the model goes on. -/
private theorem seeks (hl : s.LoadSound) (hp : s.phase? t = some p) {text : SpokenText}
    (parsed : SpokenText.parse settings.textMaxChars r.text = .ok text)
    (seeks : p.seeking? = some (.speak text (settings.defaults.resolve r)))
    (calls : callsOf t ms = []) (he : e.task? = some t) (hne : e ≠ .cancel t) :
    ∃ p', (s.step e).phase? t = some p' ∧
      Account settings r t (ms ++ [⟨s, e⟩]) (s.step e).model p' := by
  -- Whoever seeks the model is not at the gate, where all calls are made.
  have hout : ¬(⟨s, e⟩ : Moment B.transcribed).Admits t := by
    rintro (⟨hp', -⟩ | ⟨hp', -⟩) <;> cases hp'.symm.trans hp <;> simp [Phase.seeking?] at seeks
  have hcalls : callsOf t (ms ++ [⟨s, e⟩]) = [] :=
    (callsOf_concat_of_eq he (Service.transcript_step he hout)).trans calls
  -- Whether it finds the model there, loads it or waits for another to load it makes no difference.
  cases Service.outcome hl e hp seeks with
  | seeks p' hp' hs' => exact ⟨p', hp', .seeking parsed hs' hcalls⟩
  | told m hm ht =>
    have hequips : (⟨s, e⟩ : Moment B.transcribed).Equips t := ⟨m, _, _, hm, ht⟩
    have hmem : (⟨s, e⟩ : Moment B.transcribed) ∈ ms ++ [⟨s, e⟩] := by simp
    exact ⟨_, ht, .equipped ⟨parsed, hm, _, hmem, hequips⟩ hcalls⟩
  | failed p' x he' hp' hx hm ht =>
    exact ⟨_, ht, .ended (hcalls ▸ .nothing)⟩
  | dropped he' => exact absurd he' hne

/-- A task hears whether it is let in at the gate. -/
private theorem heeds {m : LoadedModel B.transcribed} {text : SpokenText}
    (ready : Ready settings r t ms s.model m text) (calls : callsOf t ms = [])
    {told : Slot Nat × Admission}
    (hstep : s.step (.advance t) = s.heedGate t m text (settings.defaults.resolve r) told) :
    ∃ p', (s.step (.advance t)).phase? t = some p' ∧
      Account settings r t (ms ++ [⟨s, .advance t⟩]) (s.step (.advance t)).model p' := by
  have hready : Ready settings r t (ms ++ [⟨s, .advance t⟩]) s.model m text :=
    ready.mono (fun _ hm => hm) fun _ hx => List.mem_append_left _ hx
  have hcalls (new : List (SpeechCall B))
      (hnew : (s.step (.advance t)).transcript = s.transcript ++ new) :
      callsOf t (ms ++ [⟨s, .advance t⟩]) = new := by
    rw [callsOf_concat rfl new hnew, calls, List.nil_append]
  obtain ⟨gate, admission⟩ := told
  cases admission with
  | waiting =>
    have hsilent := hcalls [] (by rw [hstep, List.append_nil]; rfl)
    refine ⟨_, by rw [hstep]; exact Service.phase?_enter_self _ t _, ?_⟩
    rw [hstep]
    exact .awaitingGate hready hsilent
  | refused =>
    have hsilent := hcalls [] (by rw [hstep, List.append_nil]; rfl)
    refine ⟨_, by rw [hstep]; exact Service.phase?_enter_self _ t _, .ended ?_⟩
    rw [hsilent]
    exact .nothing
  | admitted =>
    rw [Service.heedGate] at hstep
    rcases hencode : B.encode s.world.1 m.processor text.text (settings.defaults.resolve r).voice
      with ⟨w, x | inputs⟩
    -- The processor made no inputs, and its call is the last one.
    · have hstart := hstep.trans (Service.startGenerating_of_error (s := { s with gate }) hencode)
      refine ⟨_, by rw [hstart]; exact Service.phase?_enter_self _ t _, .ended ?_⟩
      rw [hcalls _ (by rw [hstart]; rfl), hstart]
      exact .refused hready
    · obtain ⟨w', call, hgenerate⟩ :=
        Service.startGenerating_of_ok (s := { s with gate }) (t := t) hencode
      have hstart := hstep.trans hgenerate
      refine ⟨_, by rw [hstart]; exact Service.phase?_enter_self _ t _, .generating (m := m) ?_⟩
      rw [hcalls _ (by rw [hstart]; rfl), hstart]
      exact .performed hready

/-- **One step.** What a task does on its own leads from one account to the next. -/
theorem step (hl : s.LoadSound) (hs : s.settings = settings) (hp : s.phase? t = some p)
    (h : Account settings r t ms s.model p) (he : e.task? = some t) (hne : e ≠ .cancel t) :
    ∃ p', (s.step e).phase? t = some p' ∧
      Account settings r t (ms ++ [⟨s, e⟩]) (s.step e).model p' := by
  -- A task goes on by itself where it waits for no call, and by an answer where it does.
  obtain hstep | ⟨rfl, hstep⟩ | ⟨rfl, hstep⟩ := Service.step_of_task hp he hne
  case inl => exact h.idle hp he hstep
  case inr.inl =>
    cases h with
    | arrived calls =>
      have hcalls : callsOf t (ms ++ [⟨s, .advance t⟩]) = [] :=
        (callsOf_concat_of_eq rfl (by rw [hstep]; rfl)).trans calls
      rw [Service.advance, Service.accept, hs] at hstep
      refine ⟨_, by rw [hstep]; exact Service.phase?_enter_self _ t _, ?_⟩
      split
      · exact .ended (hcalls ▸ .nothing)
      · next text parsed => exact .seeking parsed rfl hcalls
    | seeking parsed hseeks calls => exact seeks hl hp parsed hseeks calls he hne
    | equipped ready calls => exact heeds ready calls hstep
    | awaitingGate ready calls => exact heeds ready calls hstep
    | generating dealings => exact idle (.generating dealings) hp he hstep
    | ended dealings => exact idle (.ended dealings) hp he hstep
  case inr.inr =>
    cases h with
    | arrived calls => exact idle (.arrived calls) hp he hstep
    | seeking parsed hseeks calls => exact seeks hl hp parsed hseeks calls he hne
    | equipped ready calls => exact idle (.equipped ready calls) hp he hstep
    | awaitingGate ready calls => exact idle (.awaitingGate ready calls) hp he hstep
    | @generating m call dealings =>
      have hcalls : callsOf t (ms ++ [⟨s, .answer t⟩]) = callsOf t ms :=
        callsOf_concat_of_eq rfl (by rw [hstep]; rfl)
      refine ⟨_, by rw [hstep]; exact Service.phase?_enter_self _ t _, .ended ?_⟩
      rw [hcalls, hstep]
      exact dealings.mono (fun _ hm => hm) fun _ hx => List.mem_append_left _ hx
    | ended dealings => exact idle (.ended dealings) hp he hstep

end Account

namespace Service

/-- **Every moment.** From its arrival on, a request that is not dropped can be accounted for. -/
theorem account_run (hl : s.LoadSound) (hnew : s.phase? t = none) (r : Request)
    {es : List (ServiceEvent B.transcribed)} (hkept : .cancel t ∉ es) :
    ∃ p, (s.run (.request t r :: es)).phase? t = some p ∧
      Account s.settings r t (s.moments (.request t r :: es))
        (s.run (.request t r :: es)).model p := by
  induction es using List.reverseRecOn with
  | nil =>
    have hstep : s.step (.request t r) = s.enter t (.arrived r) := by
      rw [step, hnew]
      rfl
    have hcalls : callsOf t ([] ++ [(⟨s, .request t r⟩ : Moment B.transcribed)]) = [] :=
      callsOf_concat_of_eq rfl (by rw [hstep]; rfl)
    exact ⟨_, by rw [run_cons, hstep]; exact phase?_enter_self s t _, .arrived hcalls⟩
  | append_singleton es e ih =>
    obtain ⟨p, hp, haccount⟩ := ih fun hc => hkept (List.mem_append_left _ hc)
    have hsound : (s.run (.request t r :: es)).LoadSound := hl.run _
    have hne : e ≠ .cancel t := by
      rintro rfl
      exact hkept (List.mem_append_right _ List.mem_cons_self)
    rw [← List.cons_append, moments_concat, run_concat]
    by_cases he : e.task? = some t
    · exact haccount.step hsound (settings_run s _) hp he hne
    · -- Others may publish the model in the meantime, but they never take it away.
      refine ⟨p, (phase?_step_of_ne he).trans hp, haccount.mono (fun m hm => ?_)
        (fun x hx => List.mem_append_left _ hx) (callsOf_concat_of_ne he)⟩
      exact model_step hsound hm e

/-- **At the end.** A request that ends has dealt with the model in one of three ways. -/
theorem dealings_of_ended (hl : s.LoadSound) (hnew : s.phase? t = none) {r : Request}
    {es : List (ServiceEvent B.transcribed)} (hkept : .cancel t ∉ es) {x : Ending B.transcribed}
    (hend : (s.run (.request t r :: es)).phase? t = some (.ended x)) :
    Dealings s.settings r t (s.moments (.request t r :: es)) (s.run (.request t r :: es)).model
      (callsOf t (s.moments (.request t r :: es))) := by
  obtain ⟨p, hp, haccount⟩ := account_run hl hnew r hkept
  obtain rfl : p = .ended x := Option.some.inj (hp.symm.trans hend)
  cases haccount with
  | ended dealings => exact dealings
  | seeking _ seeks _ => simp [Phase.seeking?] at seeks

end Service

end Calls

end SpeechService
