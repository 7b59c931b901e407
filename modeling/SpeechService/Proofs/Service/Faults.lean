import SpeechService.Http.Exchange
import SpeechService.Rehearsal.Backend
import SpeechService.Proofs.Service.Restitution
import SpeechService.Proofs.Speech.Normalised
import SpeechService.Proofs.Text.Trimming

/-!
# Faults

What a request can fail on, and what its client is told of it. The **faults** of a task are those
that it meets at its own moments (`faultsOf`): its text cannot be spoken, its attempt to load the
model fails, the gate is closed, the processor or the engine fails, or the engine brings no speech
or none that can be made a clip of. A request that ends has met one fault at most, and it is told
this one and nothing else (`Service.diagnosed_of_ended`).

`Fault.told` is the table of what is told. A failure of the engine is told by its kind alone,
without regard to whether the engine was loading or generating. That is why not all faults are told
as `FollowsTaxonomy` wants it, where the request is at fault for what the processor refuses and the
model is missing only where it was not loaded: an engine that refuses its input while it generates
puts the blame on the request (`Service.not_followsTaxonomy_refusing_engine`).
-/

namespace SpeechService

variable {B : Backend}

/-! ### The taxonomy -/

/-- What a request can **fail** on. -/
inductive Fault where
  | text (cause : TextError)
  /-- Its own attempt to load the model failed. -/
  | load (cause : EngineError)
  /-- The gate is closed. -/
  | gate
  | encode (cause : EngineError)
  | generate (cause : EngineError)
  /-- The engine brought no speech. -/
  | silence
  /-- No clip can be made of the speech. -/
  | shape (detail : String)

namespace Fault

/-- The message of what happened. -/
def cause : Fault → String
  | .text c => c.message
  | .load c => c.message
  | .gate => gateClosedMessage
  | .encode c => c.message
  | .generate c => c.message
  | .silence => "engine returned no speech output"
  | .shape detail => detail

/-- What the client is **told**. -/
def told : Fault → SynthesisError
  | .text c => .validation c.message
  | .encode (.invalidInput detail) => .validation detail
  | .generate (.invalidInput detail) => .validation detail
  | .load c => .notReady c.message
  | .gate => .notReady gateClosedMessage
  | .encode (.load detail) => .notReady detail
  | .generate (.load detail) => .notReady detail
  | f => .generation f.cause

/-- The request is not at fault, and the model and the gate are there. -/
def IsOther : Fault → Prop
  | .text _ | .encode (.invalidInput _) | .load _ | .gate => False
  | _ => True

/-- The engine is at fault while it generates, or for what it brings. -/
def IsOfEngine : Fault → Prop
  | .generate _ | .silence | .shape _ => True
  | _ => False

/-- A fault that is told by the kind of its cause, and should not be. -/
inductive Misjudged : Fault → Prop where
  | engineRefuses (detail : String) : Misjudged (.generate (.invalidInput detail))
  | engineLoads (detail : String) : Misjudged (.generate (.load detail))
  | processorLoads (detail : String) : Misjudged (.encode (.load detail))

end Fault

/-- The error that a task ends with, if it does. -/
def Ending.error? : Ending B → Option SynthesisError
  | .spoken (.error e) => some e
  | _ => none

/-- A text that is **refused**: nothing is left of it when it is trimmed, or too much. -/
def SpokenText.Refused (maxChars : Nat) (given : String) : Prop :=
  ∃ t, Text.Trims given t ∧ (t = "" ∨ maxChars < t.length)

/-- The **taxonomy** of failures: who is to blame for the faults that a request met. -/
structure FollowsTaxonomy (settings : ServiceSettings) (r : Request) (faults : List Fault)
    (x : Ending B) : Prop where
  /-- The request is at fault for its text and for what the processor refuses, and only for that. -/
  validation_iff : (∃ detail, x.error? = some (.validation detail)) ↔
    SpokenText.Refused settings.textMaxChars r.text ∨
      ∃ detail, .encode (.invalidInput detail) ∈ faults
  /-- The model is missing where it was not loaded or the gate is closed, and only there. -/
  notReady_iff : (∃ detail, x.error? = some (.notReady detail)) ↔
    ¬SpokenText.Refused settings.textMaxChars r.text ∧
      ((∃ c, .load c ∈ faults) ∨ .gate ∈ faults)
  /-- All else is a failure of generation that is told with its cause. -/
  other : ∀ f ∈ faults, f.IsOther → x.error? = some (.generation f.cause)
  /-- No client is blamed or sent away for a fault of the engine. -/
  status : ∀ f ∈ faults, f.IsOfEngine → ∀ encoder, (Http.ofEnding encoder x).status = 500

/-! ### Speech that makes no clip -/

namespace RawSpeech

/-- Why no clip can be made of raw speech: it has not the size of its shape, too many of its
dimensions count, or the second one leaves too many channels. -/
def defect? (raw : RawSpeech) : Option String :=
  if ¬raw.Sized then some (shapeMismatch "array" raw.shape raw.numbers.length).message
  else if 2 < raw.dimensions.length then
    some ("unsupported speech output shape " ++ shapeText raw.dimensions)
  else
    (raw.dimensions[1]?.filter (Text.max16 < ·)).map
      ("too many audio channels: " ++ Text.ofNat ·)

end RawSpeech

namespace Clip

/-- A clip is made of raw speech unless there is something wrong with it, which is told then. -/
theorem layout_eq (raw : RawSpeech) :
    (∃ detail, raw.defect? = some detail ∧ layout raw = .error (.generation detail)) ∨
      raw.defect? = none ∧ ∃ channels, layout raw = .ok (raw.numbers, channels) := by
  rw [RawSpeech.defect?]
  by_cases hs : raw.Sized
  · rw [if_neg (not_not.mpr hs)]
    by_cases hdeep : 2 < raw.dimensions.length
    · rw [if_pos hdeep]
      exact .inl ⟨_, rfl, layout_of_deep hs hdeep⟩
    rw [if_neg hdeep]
    by_cases hmono : raw.dimensions.length ≤ 1
    · rw [List.getElem?_eq_none hmono]
      exact .inr ⟨rfl, 1, layout_of_mono hs hmono⟩
    obtain ⟨frames, channels, hd⟩ : ∃ frames channels, raw.dimensions = [frames, channels] :=
      List.length_eq_two.mp (by omega)
    have hlayout := layout_of_interleaved hs hd
    by_cases hc : channels ≤ Text.max16
    · refine .inr ⟨?_, channels, hlayout.trans (if_pos hc)⟩
      simp [hd, Option.filter, Nat.not_lt.mpr hc]
    · refine .inl ⟨_, ?_, hlayout.trans (if_neg hc)⟩
      simp [hd, Option.filter, Nat.lt_of_not_le hc]
  · rw [if_pos hs]
    exact .inl ⟨_, rfl, layout_of_not_sized hs⟩

end Clip

/-! ### Faults of a task -/

/-- What is wrong with what an engine brings. An engine that breaks down is another matter. -/
def Performance.fault? : Performance → Option Fault
  | .speech [] => some .silence
  | .speech (raw :: _) => raw.defect?.map .shape
  | .failure c => some (.generate c)
  | .panic _ => none

/-- The fault that comes back with the call that a task waits for. -/
def Phase.faultBack? : Phase B → Option Fault
  | .generating _ call => call.result.fault?
  | p => p.loadFailure?.map .load

namespace Service

/-- The fault that a task meets when it hears whether it is let in. -/
def gateFault? (s : Service B) (m : LoadedModel B) (text : SpokenText) (q : Parameters) :
    Admission → Option Fault
  | .waiting => none
  | .refused => some .gate
  | .admitted =>
    match (B.encode s.world m.processor text.text q.voice).2 with
    | .error c => some (.encode c)
    | .ok _ => none

/-- The fault that a task meets when it goes on. -/
def faultAhead? (s : Service B) (t : Nat) : Phase B → Option Fault
  | .arrived r =>
    match SpokenText.parse s.settings.textMaxChars r.text with
    | .error c => some (.text c)
    | .ok _ => none
  | .equipped m text q => s.gateFault? m text q (s.gate.ask t).2
  | .awaitingGate m text q => s.gateFault? m text q (s.gate.look t).2
  | _ => none

end Service

/-- The fault that a task **meets** at a moment. -/
def Moment.fault? (t : Nat) : Moment B → Option Fault
  | ⟨s, .advance u⟩ => if u = t then (s.phase? t).bind (s.faultAhead? t) else none
  | ⟨s, .answer u⟩ => if u = t then (s.phase? t).bind Phase.faultBack? else none
  | _ => none

/-- The **faults of a task** among some moments. -/
def faultsOf (t : Nat) (ms : List (Moment B)) : List Fault := ms.filterMap (·.fault? t)

section Faults

variable {s : Service B} {t : Nat} {p : Phase B} {e : ServiceEvent B} {ms : List (Moment B)}

theorem faultsOf_concat (t : Nat) (ms : List (Moment B)) (x : Moment B) :
    faultsOf t (ms ++ [x]) = faultsOf t ms ++ (x.fault? t).toList := by
  rw [faultsOf, List.filterMap_append, faultsOf]
  cases hx : x.fault? t <;> simp [hx]

namespace Moment

/-- Where a task goes on it meets what lies ahead of it. -/
theorem fault?_advance (hp : s.phase? t = some p) :
    (⟨s, .advance t⟩ : Moment B).fault? t = s.faultAhead? t p := by
  simp only [fault?, if_true, hp, Option.bind_some]

/-- Where its call is brought back it meets what the call comes back with. -/
theorem fault?_answer (hp : s.phase? t = some p) :
    (⟨s, .answer t⟩ : Moment B).fault? t = p.faultBack? := by
  simp only [fault?, if_true, hp, Option.bind_some]

/-- Only a task that goes on or that hears of its call can meet a fault. -/
theorem fault?_eq_none {x : Moment B} (ha : x.event ≠ .advance t) (hb : x.event ≠ .answer t) :
    x.fault? t = none := by
  obtain ⟨s, e⟩ := x
  cases e with
  | advance u =>
    have hu : u ≠ t := fun hu => ha (hu ▸ rfl)
    exact if_neg hu
  | answer u =>
    have hu : u ≠ t := fun hu => hb (hu ▸ rfl)
    exact if_neg hu
  | _ => rfl

end Moment

/-! ### What is told of a fault -/

/-- What a performance ends with is told of the fault in it. -/
theorem Performance.error?_ending (m : LoadedModel B) (performance : Performance) :
    (performance.ending m).error? = performance.fault?.map Fault.told := by
  cases performance with
  | speech outputs =>
    cases outputs with
    | nil => rfl
    | cons raw rest =>
      rw [ending, fault?]
      obtain ⟨detail, hdefect, hlayout⟩ | ⟨hnone, channels, hlayout⟩ := Clip.layout_eq raw
      · rw [hdefect, Clip.ofRaw_of_error hlayout]
        rfl
      · rw [hnone, Clip.ofRaw_of_ok hlayout]
        rfl
  | failure c => cases c <;> rfl
  | panic message => rfl

/-- No performance is at fault for a text. -/
theorem Performance.fault?_ne_text (performance : Performance) (c : TextError) :
    performance.fault? ≠ some (.text c) := by
  cases performance with
  | speech outputs => cases outputs <;> simp [fault?]
  | failure c => simp [fault?]
  | panic message => simp [fault?]

/-- A text is refused when it cannot be parsed. -/
theorem SpokenText.exists_parse_eq_error_iff {maxChars : Nat} {given : String} :
    (∃ c, parse maxChars given = .error c) ↔ Refused maxChars given := by
  have hrefused : Refused maxChars given ↔
      Text.trim given = "" ∨ maxChars < (Text.trim given).length := by
    constructor
    · rintro ⟨t, ht, h⟩
      exact Text.trims_iff.mp ht ▸ h
    · exact fun h => ⟨_, Text.trims_trim given, h⟩
  rw [hrefused, parse]
  by_cases hempty : Text.trim given = ""
  · simp [hempty]
  · by_cases hlong : maxChars < (Text.trim given).length <;> simp [hempty, hlong]

/-! ### The course of a request -/

/-- A request that is **pending** in a phase: nothing went wrong so far. -/
inductive Phase.Pending (settings : ServiceSettings) (r : Request) : Phase B → Prop where
  | arrived : Pending settings r (.arrived r)
  | seeking {p : Phase B} {text : SpokenText}
    (parsed : SpokenText.parse settings.textMaxChars r.text = .ok text)
    (seeks : p.seeking? = some (.speak text (settings.defaults.resolve r))) :
    Pending settings r p
  | equipped {m text} (parsed : SpokenText.parse settings.textMaxChars r.text = .ok text) :
    Pending settings r (.equipped m text (settings.defaults.resolve r))
  | awaitingGate {m text} (parsed : SpokenText.parse settings.textMaxChars r.text = .ok text) :
    Pending settings r (.awaitingGate m text (settings.defaults.resolve r))
  | generating {m call text} (parsed : SpokenText.parse settings.textMaxChars r.text = .ok text) :
    Pending settings r (.generating m call)

/-- A fault that fits the text of a request. -/
def Fault.Fits (settings : ServiceSettings) (r : Request) (f : Fault) : Prop :=
  (∃ c, f = .text c) ↔ SpokenText.Refused settings.textMaxChars r.text

/-- How it **stands** with a request by the faults that it met: it is pending, or it ended without a
fault and is told of none, or it ended with the one fault that it is told of. -/
inductive Phase.Stands (settings : ServiceSettings) (r : Request) :
    List Fault → Phase B → Prop where
  | pending {p : Phase B} (h : p.Pending settings r) : Stands settings r [] p
  | fine {x : Ending B} (spoken : ¬SpokenText.Refused settings.textMaxChars r.text)
    (h : x.error? = none) : Stands settings r [] (.ended x)
  | failed {x : Ending B} {f : Fault} (fits : f.Fits settings r) (h : x.error? = some f.told) :
    Stands settings r [f] (.ended x)

variable {settings : ServiceSettings} {r : Request}

theorem SpokenText.not_refused_of_parse {maxChars : Nat} {given : String} {text : SpokenText}
    (h : parse maxChars given = .ok text) : ¬Refused maxChars given := by
  rw [← exists_parse_eq_error_iff]
  rintro ⟨c, hc⟩
  exact nomatch hc.symm.trans h

/-- A fault that is not one of the text fits a text that can be spoken. -/
theorem Fault.fits_of_parse {f : Fault} {text : SpokenText}
    (parsed : SpokenText.parse settings.textMaxChars r.text = .ok text) (hf : ∀ c, f ≠ .text c) :
    f.Fits settings r := by
  refine iff_of_false ?_ (SpokenText.not_refused_of_parse parsed)
  rintro ⟨c, hc⟩
  exact hf c hc

namespace Phase

/-- Nothing lies ahead of a task that seeks the model. -/
theorem faultAhead?_of_seeking {errand : Errand} (hs : p.seeking? = some errand) :
    s.faultAhead? t p = none := by
  cases p <;> first | rfl | simp [seeking?] at hs

/-- A task that seeks the model can only meet a failure of loading. -/
theorem faultBack?_of_seeking {errand : Errand} (hs : p.seeking? = some errand) :
    p.faultBack? = p.loadFailure?.map .load := by
  cases p <;> first | rfl | simp [seeking?] at hs

namespace Pending

/-- A request goes on to seek the model, or finds it, or its attempt to load it fails. -/
private theorem seeks (hl : s.LoadSound) (hp : s.phase? t = some p) {text : SpokenText}
    (parsed : SpokenText.parse settings.textMaxChars r.text = .ok text)
    (hs : p.seeking? = some (.speak text (settings.defaults.resolve r)))
    (he : e = .advance t ∨ e = .answer t) :
    ∃ p', (s.step e).phase? t = some p' ∧
      Stands settings r ((⟨s, e⟩ : Moment B).fault? t).toList p' := by
  have hne : e ≠ .cancel t := by
    obtain rfl | rfl := he <;> simp
  -- A call that fails is the only fault on the way to the model.
  by_cases hfails : e = .answer t ∧ ∃ c, p.loadFailure? = some c
  · obtain ⟨rfl, c, hc⟩ := hfails
    have hfault : (⟨s, .answer t⟩ : Moment B).fault? t = some (.load c) := by
      rw [Moment.fault?_answer hp, faultBack?_of_seeking hs, hc, Option.map_some]
    rw [Service.step_answer_of_loadFailure hp hs hc, hfault]
    refine ⟨_, Service.phase?_enter_self _ t _, .failed ?_ rfl⟩
    exact Fault.fits_of_parse parsed fun c => by simp
  · have hfault : (⟨s, e⟩ : Moment B).fault? t = none := by
      obtain rfl | rfl := he
      · rw [Moment.fault?_advance hp, faultAhead?_of_seeking hs]
      · rw [Moment.fault?_answer hp, faultBack?_of_seeking hs, Option.map_eq_none_iff]
        exact Option.eq_none_iff_forall_ne_some.mpr fun c hc => hfails ⟨rfl, c, hc⟩
    rw [hfault]
    cases Service.outcome hl e hp hs with
    | seeks p' hp' hs' => exact ⟨p', hp', .pending (.seeking parsed hs')⟩
    | told m hm ht => exact ⟨_, ht, .pending (.equipped parsed)⟩
    | failed p' c he' hp' hc hm ht =>
      obtain rfl : p' = p := Option.some.inj (hp'.symm.trans hp)
      exact absurd ⟨he', c, hc⟩ hfails
    | dropped he' => exact absurd he' hne

/-- A request hears whether it is let in. Who is let in has its text made into inputs at once. -/
private theorem heeds {m : LoadedModel B} {text : SpokenText}
    (parsed : SpokenText.parse settings.textMaxChars r.text = .ok text)
    (told : Slot Nat × Admission) :
    ∃ p', (s.heedGate t m text (settings.defaults.resolve r) told).phase? t = some p' ∧
      Stands settings r
        (s.gateFault? m text (settings.defaults.resolve r) told.2).toList p' := by
  obtain ⟨gate, admission⟩ := told
  cases admission with
  | waiting => exact ⟨_, Service.phase?_enter_self _ t _, .pending (.awaitingGate parsed)⟩
  | refused =>
    refine ⟨_, Service.phase?_enter_self _ t _, .failed ?_ rfl⟩
    exact Fault.fits_of_parse parsed fun c => by simp
  | admitted =>
    rcases hencode : B.encode s.world m.processor text.text (settings.defaults.resolve r).voice
      with ⟨w, c | inputs⟩
    -- The inputs could not be made: the request ends without a call to the engine.
    · simp only [Service.heedGate, Service.startGenerating, Service.gateFault?, hencode]
      refine ⟨_, Service.phase?_enter_self _ t _, .failed ?_ ?_⟩
      · exact Fault.fits_of_parse parsed fun c => by simp
      · cases c <;> rfl
    · simp only [Service.heedGate, Service.startGenerating, Service.gateFault?, hencode]
      exact ⟨_, Service.phase?_enter_self _ t _, .pending (.generating parsed)⟩

/-- **One step.** Either nothing goes wrong at a moment of a pending request, or it ends with the
fault that it meets there. -/
theorem step (hl : s.LoadSound) (hs : s.settings = settings) (hp : s.phase? t = some p)
    (h : p.Pending settings r) (he : e.task? = some t) (hne : e ≠ .cancel t) :
    ∃ p', (s.step e).phase? t = some p' ∧
      Stands settings r ((⟨s, e⟩ : Moment B).fault? t).toList p' := by
  -- Where the event does nothing to the task, it meets no fault and stays pending.
  have hidle (hstep : s.step e = s) (hfault : (⟨s, e⟩ : Moment B).fault? t = none) :
      ∃ p', (s.step e).phase? t = some p' ∧
        Stands settings r ((⟨s, e⟩ : Moment B).fault? t).toList p' := by
    rw [hstep, hfault]
    exact ⟨p, hp, .pending h⟩
  by_cases hadvance : e = .advance t
  · subst hadvance
    have hfault := Moment.fault?_advance hp
    have hstep := Service.step_advance hp
    cases h with
    | arrived =>
      rw [Service.faultAhead?, hs] at hfault
      rw [hfault, hstep, Service.advance, Service.accept, hs]
      refine ⟨_, Service.phase?_enter_self s t _, ?_⟩
      cases hparse : SpokenText.parse settings.textMaxChars r.text with
      | error c =>
        refine .failed ?_ rfl
        exact iff_of_true ⟨c, rfl⟩ (SpokenText.exists_parse_eq_error_iff.mp ⟨c, hparse⟩)
      | ok text => exact .pending (.seeking hparse rfl)
    | seeking parsed hseeks => exact seeks hl hp parsed hseeks (.inl rfl)
    | equipped parsed =>
      rw [hfault, hstep]
      exact heeds parsed _
    | awaitingGate parsed =>
      rw [hfault, hstep]
      exact heeds parsed _
    | generating parsed => exact hidle hstep hfault
  by_cases hanswer : e = .answer t
  · subst hanswer
    have hfault := Moment.fault?_answer hp
    have hstep := Service.step_answer hp
    cases h with
    | arrived => exact hidle hstep hfault
    | seeking parsed hseeks => exact seeks hl hp parsed hseeks (.inr rfl)
    | equipped parsed => exact hidle hstep hfault
    | awaitingGate parsed => exact hidle hstep hfault
    | @generating m call text parsed =>
      have herror := Performance.error?_ending m call.result
      rw [faultBack?] at hfault
      rw [hfault, hstep]
      refine ⟨_, Service.phase?_enter_self _ t _, ?_⟩
      cases hperformance : call.result.fault? with
      | none =>
        rw [hperformance] at herror
        exact .fine (SpokenText.not_refused_of_parse parsed) herror
      | some f =>
        rw [hperformance] at herror
        refine .failed (Fault.fits_of_parse parsed fun c => ?_) herror
        rintro rfl
        exact call.result.fault?_ne_text c hperformance
  · have hstep : s.step e = s := by
      obtain hstep | ⟨ha, -⟩ | ⟨hb, -⟩ := Service.step_of_task hp he hne
      · exact hstep
      · exact absurd ha hadvance
      · exact absurd hb hanswer
    exact hidle hstep (Moment.fault?_eq_none hadvance hanswer)

end Pending

end Phase

/-! ### Every run -/

/-- A task that has ended does nothing more, and meets no faults. -/
private theorem idle_of_ended {x : Ending B} (hp : s.phase? t = some (.ended x))
    (he : e.task? = some t) (hne : e ≠ .cancel t) :
    s.step e = s ∧ (⟨s, e⟩ : Moment B).fault? t = none := by
  by_cases hadvance : e = .advance t
  · subst hadvance
    exact ⟨Service.step_advance hp, Moment.fault?_advance hp⟩
  by_cases hanswer : e = .answer t
  · subst hanswer
    exact ⟨Service.step_answer hp, Moment.fault?_answer hp⟩
  · refine ⟨?_, Moment.fault?_eq_none hadvance hanswer⟩
    obtain hstep | ⟨ha, -⟩ | ⟨hb, -⟩ := Service.step_of_task hp he hne
    · exact hstep
    · exact absurd ha hadvance
    · exact absurd hb hanswer

namespace Service

/-- **Every moment.** From its arrival on, it is known how a request stands that is not dropped. -/
theorem stands_run (hl : s.LoadSound) (hnew : s.phase? t = none) (r : Request)
    {es : List (ServiceEvent B)} (hkept : .cancel t ∉ es) :
    ∃ p, (s.run (.request t r :: es)).phase? t = some p ∧
      p.Stands s.settings r (faultsOf t (s.moments (.request t r :: es))) := by
  induction es using List.reverseRecOn with
  | nil =>
    have hstep : s.step (.request t r) = s.enter t (.arrived r) := by
      rw [step, hnew]
      rfl
    refine ⟨.arrived r, ?_, .pending .arrived⟩
    rw [run_cons, hstep]
    exact phase?_enter_self s t _
  | append_singleton es e ih =>
    obtain ⟨p, hp, hstands⟩ := ih fun hc => hkept (List.mem_append_left _ hc)
    have hsound : (s.run (.request t r :: es)).LoadSound := hl.run _
    have hne : e ≠ .cancel t := by
      rintro rfl
      exact hkept (List.mem_append_right _ List.mem_cons_self)
    rw [← List.cons_append, moments_concat, run_concat, faultsOf_concat]
    generalize faultsOf t (s.moments (.request t r :: es)) = faults at hstands
    by_cases he : e.task? = some t
    · cases hstands with
      | pending h => exact h.step hsound (settings_run s _) hp he hne
      | fine spoken h =>
        obtain ⟨hstep, hfault⟩ := idle_of_ended hp he hne
        rw [hstep, hfault]
        exact ⟨_, hp, .fine spoken h⟩
      | failed fits h =>
        obtain ⟨hstep, hfault⟩ := idle_of_ended hp he hne
        rw [hstep, hfault]
        exact ⟨_, hp, .failed fits h⟩
    · -- What others do is no fault of the task, and does not move it.
      have hfault : (⟨s.run (.request t r :: es), e⟩ : Moment B).fault? t = none := by
        refine Moment.fault?_eq_none ?_ ?_ <;> rintro rfl <;> exact he rfl
      rw [hfault, Option.toList_none, List.append_nil]
      exact ⟨p, (phase?_step_of_ne he).trans hp, hstands⟩

end Service

/-! ### The table of what is told -/

namespace Fault

/-- The client is blamed for its text, and for inputs that the processor or the engine refuses. -/
theorem told_validation_iff (f : Fault) : (∃ detail, f.told = .validation detail) ↔
    (∃ c, f = .text c) ∨ (∃ detail, f = .encode (.invalidInput detail)) ∨
      ∃ detail, f = .generate (.invalidInput detail) := by
  cases f with
  | encode c => cases c <;> simp [told]
  | generate c => cases c <;> simp [told]
  | _ => simp [told]

/-- The service is said not to be ready when loading failed or the gate is closed, and when the
processor or the engine says that loading failed. -/
theorem told_notReady_iff (f : Fault) : (∃ detail, f.told = .notReady detail) ↔
    (∃ c, f = .load c) ∨ f = .gate ∨ (∃ detail, f = .encode (.load detail)) ∨
      ∃ detail, f = .generate (.load detail) := by
  cases f with
  | encode c => cases c <;> simp [told]
  | generate c => cases c <;> simp [told]
  | _ => simp [told]

/-- Whatever is not misjudged and is not to blame on the request, the model or the gate. -/
theorem told_of_isOther {f : Fault} (hf : f.IsOther) (hnot : ¬f.Misjudged) :
    f.told = .generation f.cause := by
  cases f with
  | text c => exact hf.elim
  | load c => exact hf.elim
  | gate => exact hf.elim
  | encode c =>
    cases c with
    | invalidInput detail => exact hf.elim
    | load detail => exact absurd (.processorLoads detail) hnot
    | _ => rfl
  | generate c =>
    cases c with
    | invalidInput detail => exact absurd (.engineRefuses detail) hnot
    | load detail => exact absurd (.engineLoads detail) hnot
    | _ => rfl
  | silence => rfl
  | shape detail => rfl

/-- What goes wrong in the engine is no fault of the request, the model or the gate. -/
theorem isOther_of_isOfEngine {f : Fault} (h : f.IsOfEngine) : f.IsOther := by
  cases f <;> trivial

theorem Misjudged.isOther {f : Fault} (h : f.Misjudged) : f.IsOther := by
  cases h <;> trivial

/-- What is misjudged is not told as a failure of generation. -/
theorem Misjudged.told_ne {f : Fault} (h : f.Misjudged) (detail : String) :
    f.told ≠ .generation detail := by
  cases h <;> simp [told]

end Fault

/-- The status of a response is that of the error in it. -/
theorem Http.status_ofEnding {x : Ending B} {c : SynthesisError} (h : x.error? = some c)
    (encoder : Encoder) : (ofEnding encoder x).status = (ApiError.ofSynthesis c).status := by
  cases x with
  | spoken result =>
    cases result with
    | error c' =>
      obtain rfl : c' = c := Option.some.inj h
      rfl
    | ok clip => exact nomatch h
  | loaded result => exact nomatch h
  | panicked message => exact nomatch h

/-- With one fault, the taxonomy is followed unless the fault is misjudged. -/
theorem Fault.followsTaxonomy_iff {f : Fault} {x : Ending B} (fits : f.Fits settings r)
    (h : x.error? = some f.told) : FollowsTaxonomy settings r [f] x ↔ ¬f.Misjudged := by
  constructor
  · intro hfollows hmisjudged
    have hother := hfollows.other f List.mem_cons_self hmisjudged.isOther
    exact hmisjudged.told_ne _ (Option.some.inj (h.symm.trans hother))
  · intro hnot
    -- What is left of the blame, once the misjudged faults are out, is that of the taxonomy.
    have hrefuses : ¬∃ detail, f = .generate (.invalidInput detail) :=
      fun ⟨detail, hd⟩ => hnot (hd ▸ .engineRefuses detail)
    have hloads : ¬((∃ detail, f = .encode (.load detail)) ∨
        ∃ detail, f = .generate (.load detail)) := by
      rintro (⟨detail, rfl⟩ | ⟨detail, rfl⟩)
      · exact hnot (.processorLoads detail)
      · exact hnot (.engineLoads detail)
    have hother (g : Fault) (hg : g ∈ [f]) (ho : g.IsOther) :
        x.error? = some (.generation g.cause) := by
      obtain rfl := List.mem_singleton.mp hg
      rw [h, told_of_isOther ho hnot]
    have hfits : (∃ c, f = .text c) ↔ SpokenText.Refused settings.textMaxChars r.text := fits
    refine ⟨?_, ?_, hother, fun g hg ho encoder => ?_⟩
    · simp only [h, Option.some.injEq, told_validation_iff, hrefuses, or_false, hfits,
        List.mem_singleton, eq_comm]
    · simp only [h, Option.some.injEq, told_notReady_iff, hloads, or_false, ← hfits,
        List.mem_singleton, eq_comm]
      -- A fault of the loading or of the gate is none of the text.
      refine iff_and_self.mpr ?_
      rintro (⟨c, rfl⟩ | rfl) ⟨c', hc'⟩ <;> exact nomatch hc'
    · rw [Http.status_ofEnding (hother g hg (isOther_of_isOfEngine ho))]
      rfl

/-- Without a fault, the taxonomy is followed. -/
theorem followsTaxonomy_nil {x : Ending B}
    (spoken : ¬SpokenText.Refused settings.textMaxChars r.text) (h : x.error? = none) :
    FollowsTaxonomy settings r [] x where
  validation_iff := by simp [h, spoken]
  notReady_iff := by simp [h]
  other f hf := absurd hf List.not_mem_nil
  status f hf := absurd hf List.not_mem_nil

theorem Performance.fault?_ne_gate (performance : Performance) :
    performance.fault? ≠ some .gate := by
  cases performance with
  | speech outputs => cases outputs <;> simp [fault?]
  | failure c => simp [fault?]
  | panic message => simp [fault?]

/-- The gate is a fault only for whom it refuses. -/
theorem Service.refused_of_gateFault? {m : LoadedModel B} {text : SpokenText} {q : Parameters}
    {admission : Admission} (h : s.gateFault? m text q admission = some .gate) :
    admission = .refused := by
  cases admission with
  | refused => rfl
  | waiting => exact nomatch h
  | admitted =>
    rw [gateFault?] at h
    split at h <;> exact nomatch h

/-- The gate is at fault only where it is closed to a task that comes to it. -/
theorem Moment.closed_of_fault? {x : Moment B} (h : x.fault? t = some .gate) :
    x.event = .advance t ∧ x.service.gate.closed = true := by
  by_cases hadvance : x.event = .advance t
  · refine ⟨hadvance, ?_⟩
    obtain ⟨s, e⟩ := x
    obtain rfl : e = .advance t := hadvance
    cases hp : s.phase? t with
    | none => simp [fault?, hp] at h
    | some p =>
      rw [fault?_advance hp] at h
      cases p with
      | arrived r =>
        rw [Service.faultAhead?] at h
        split at h <;> exact nomatch h
      | equipped m text q => exact Slot.closed_of_ask (Service.refused_of_gateFault? h)
      | awaitingGate m text q => exact Slot.closed_of_look (Service.refused_of_gateFault? h)
      | _ => exact nomatch h
  · exfalso
    -- No call comes back with the gate.
    by_cases hanswer : x.event = .answer t
    · obtain ⟨s, e⟩ := x
      obtain rfl : e = .answer t := hanswer
      cases hp : s.phase? t with
      | none => simp [fault?, hp] at h
      | some p =>
        rw [fault?_answer hp] at h
        cases p with
        | generating m call => exact call.result.fault?_ne_gate h
        | _ => simp [Phase.faultBack?] at h
    · exact nomatch (fault?_eq_none hadvance hanswer).symm.trans h

/-- What a request **is told** that has ended with some faults. -/
structure Diagnosed (settings : ServiceSettings) (r : Request) (faults : List Fault)
    (x : Ending B) : Prop where
  /-- It is told of the one fault that it met, if it met one. -/
  told : x.error?.toList = faults.map Fault.told
  /-- Its text is at fault exactly if it cannot be spoken. -/
  text_iff : (∃ c, .text c ∈ faults) ↔ SpokenText.Refused settings.textMaxChars r.text
  /-- The request is blamed for its text, and for what the processor or the engine refuses. -/
  validation_iff : (∃ detail, x.error? = some (.validation detail)) ↔
    SpokenText.Refused settings.textMaxChars r.text ∨
      (∃ detail, .encode (.invalidInput detail) ∈ faults) ∨
      ∃ detail, .generate (.invalidInput detail) ∈ faults
  /-- The model is called missing where it was not loaded or the gate is closed, and where the
  processor or the engine say that something was not loaded. -/
  notReady_iff : (∃ detail, x.error? = some (.notReady detail)) ↔
    (∃ c, .load c ∈ faults) ∨ .gate ∈ faults ∨ (∃ detail, .encode (.load detail) ∈ faults) ∨
      ∃ detail, .generate (.load detail) ∈ faults
  /-- All else is a failure of generation that is told with its cause. -/
  other : ∀ f ∈ faults, f.IsOther → ¬f.Misjudged → x.error? = some (.generation f.cause) ∧
    ∀ encoder, (Http.ofEnding encoder x).status = 500
  /-- Only a fault that is misjudged stands against the taxonomy. -/
  follows_iff : FollowsTaxonomy settings r faults x ↔ ∀ f ∈ faults, ¬f.Misjudged

/-- It is known what a request is told once it has ended. -/
theorem Phase.Stands.diagnosis {faults : List Fault} {x : Ending B}
    (h : (Phase.ended x).Stands settings r faults) : Diagnosed settings r faults x := by
  cases h with
  -- A request that has ended is not pending.
  | pending h => cases h with
    | seeking parsed seeks => simp [Phase.seeking?] at seeks
  | fine spoken h =>
    have hnot (f : Fault) : f ∉ ([] : List Fault) := List.not_mem_nil
    refine ⟨by simp [h], by simp [spoken], by simp [h, spoken], by simp [h], ?_, ?_⟩
    · exact fun f hf => absurd hf (hnot f)
    · exact iff_of_true (followsTaxonomy_nil spoken h) fun f hf => absurd hf (hnot f)
  | @failed x f fits h =>
    have hfits : (∃ c, f = .text c) ↔ SpokenText.Refused settings.textMaxChars r.text := fits
    refine ⟨by simp [h], ?_, ?_, ?_, fun g hg ho hnot => ?_, ?_⟩
    · simpa [eq_comm] using hfits
    · simp only [h, Option.some.injEq, f.told_validation_iff, hfits, List.mem_singleton, eq_comm]
    · simp only [h, Option.some.injEq, f.told_notReady_iff, List.mem_singleton, eq_comm]
    · obtain rfl := List.mem_singleton.mp hg
      have herror : x.error? = some (.generation g.cause) := by
        rw [h, Fault.told_of_isOther ho hnot]
      exact ⟨herror, fun encoder => Http.status_ofEnding herror encoder⟩
    · rw [Fault.followsTaxonomy_iff fits h]
      simp

end Faults

/-! ### Every request -/

namespace Service

/-- **Diagnosis.** Every request that ends without having been dropped is told of the one fault that
it met, whatever backend the service has and whatever happened before and in between. The gate is a
fault only where it was closed when the task came to it. -/
theorem diagnosed_of_ended (settings : ServiceSettings) (world : B.World)
    (history : List (ServiceEvent B)) (t : Nat) (r : Request)
    (hnew : (({ settings, world } : Service B).run history).phase? t = none)
    (es : List (ServiceEvent B)) (hkept : .cancel t ∉ es) (x : Ending B)
    (hend : ((({ settings, world } : Service B).run history).run (.request t r :: es)).phase? t
      = some (.ended x)) :
    let moments := (({ settings, world } : Service B).run history).moments (.request t r :: es)
    Diagnosed settings r (faultsOf t moments) x ∧
      (.gate ∈ faultsOf t moments →
        ∃ y ∈ moments, y.event = .advance t ∧ y.service.gate.closed = true) := by
  intro moments
  have hload : (({ settings, world } : Service B).run history).LoadSound :=
    LoadSound.run (loadSound_new settings world) history
  have hsettings := settings_run ({ settings, world } : Service B) history
  obtain ⟨p, hp, hstands⟩ := stands_run hload hnew r hkept
  obtain rfl : p = .ended x := Option.some.inj (hp.symm.trans hend)
  refine ⟨(hsettings ▸ hstands).diagnosis, fun hmem => ?_⟩
  obtain ⟨y, hy, hfault⟩ := List.mem_filterMap.mp hmem
  exact ⟨y, hy, Moment.closed_of_fault? hfault⟩

/-- The steps of a request that is alone, from its arrival to the end of its generation. -/
def soloSteps (B : Backend) : List (ServiceEvent B) :=
  [.advance 0, .advance 0, .answer 0, .answer 0, .advance 0, .answer 0]

/-- An engine that runs out of memory while it generates: the request is told so. -/
theorem diagnosed_of_ended_out_of_memory :
    let B := Rehearsal.Script.backend {}
    let world : Rehearsal.Stage := { performances := [some (.failure (.inference "no memory"))] }
    let s : Service B := { world }
    let ms := s.moments (.request 0 { text := "hi" } :: soloSteps B)
    let x : Ending B := .spoken (.error (.generation "Inference failed: no memory"))
    (s.run (.request 0 { text := "hi" } :: soloSteps B)).phase? 0 = some (.ended x) ∧
      Diagnosed {} { text := "hi" } (faultsOf 0 ms) x := by
  intro B world s ms x
  have hkept : .cancel 0 ∉ soloSteps B := by simp [soloSteps]
  have hdiagnosed := diagnosed_of_ended {} world [] 0 { text := "hi" } rfl (soloSteps B) hkept x rfl
  rw [run_nil] at hdiagnosed
  exact ⟨rfl, hdiagnosed.1⟩

/-- An engine that refuses its input while it generates: the taxonomy is **not followed**, and the
request is blamed. -/
theorem not_followsTaxonomy_refusing_engine :
    let B := Rehearsal.Script.backend {}
    let world : Rehearsal.Stage :=
      { performances := [some (.failure (.invalidInput "bad token"))] }
    let s : Service B := { world }
    let ms := s.moments (.request 0 { text := "hi" } :: soloSteps B)
    ∃ x, (s.run (.request 0 { text := "hi" } :: soloSteps B)).phase? 0 = some (.ended x) ∧
      ¬FollowsTaxonomy s.settings { text := "hi" } (faultsOf 0 ms) x := by
  intro B world s ms
  refine ⟨.spoken (.error (.validation "bad token")), rfl, fun h => ?_⟩
  have hfaults : faultsOf 0 ms = [.generate (.invalidInput "bad token")] := rfl
  have hother := h.other (.generate (.invalidInput "bad token")) (by simp [hfaults]) trivial
  simp [Ending.error?] at hother

end Service

end SpeechService
