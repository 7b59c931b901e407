import SpeechService.Proofs.Request.SpokenText
import SpeechService.Proofs.Service.SingleFlight
import SpeechService.Proofs.Synthetic.Answer

/-!
# The exact outcome of a request

What a service with the synthetic backend and the WAV encoder responds to a request for speech,
after anything that may have happened to it before: requests that ran one after another or at once,
dropped or not, the gate closed, the files of the model changed. (Asking how the service is changes
nothing, and so is no event.)

* A request that has the service to itself gets the response that `Settings.response` tells from
  the service as it is, the files and the request.
* A request among others ends for exactly one of the same reasons (`Settings.Ends`), whatever the
  others do meanwhile.
* No response ever has the status 500, since nothing that could go wrong inside can be reached.
-/

namespace SpeechService

open Http

namespace Settings

variable (s : Settings) (search : DeviceSearch)

/-- Nothing is left of the text of a request when it is trimmed, or it has too many characters. -/
def RefusesText (r : Request) : Prop :=
  Text.trim r.text = "" ∨ s.textMaxChars < (Text.trim r.text).length

/-- The **response** to a request that has the service to itself. -/
def response (σ : Service (s.backend search)) (r : Request) : HttpResponse :=
  let text := Text.trim r.text
  let p := s.defaults.resolve r
  if text = "" then failed (.badRequest (TextError.message .empty)) true
  else if s.textMaxChars < text.length then
    failed (.badRequest (TextError.message (.tooLong s.textMaxChars))) true
  else
    match s.modelFor search σ with
    | .error x => failed (.serviceUnavailable ("Model is not loaded: " ++ x.message)) true
    | .ok m =>
      if σ.gate.closed then
        failed (.serviceUnavailable ("Model is not loaded: " ++ gateClosedMessage)) true
      else if m.reader.knows p.voice then speech (m.file text p)
      else failed (.badRequest ("unknown voice: " ++ p.voice.getD "")) true

/-- Why a request **ends** at an event, and with which response. -/
inductive Ends (σ : Service (s.backend search)) (t : Nat) (r : Request)
    (e : ServiceEvent (s.backend search)) : HttpResponse → Prop where
  /-- Its text is refused; nothing but the task is touched. -/
  | text {x} (hr : s.RefusesText r) (hp : σ.phase? t = some (.arrived r))
    (he : σ.step e = σ.enter t (.ended (.spoken (.error (.ofText x))))) :
    Ends σ t r e (failed (.badRequest x.message) true)
  /-- Nothing is published, and its own attempt to load the model fails. -/
  | load {p x} (hr : ¬s.RefusesText r) (hm : σ.model = none) (he : e = .answer t)
    (hp : σ.phase? t = some p) (hx : p.loadFailure? = some (.load x)) :
    Ends σ t r e (failed (.serviceUnavailable
      ("Model is not loaded: " ++ (EngineError.load x).message)) true)
  /-- The gate is closed. -/
  | closed {m} (hr : ¬s.RefusesText r) (hm : σ.model = some m) (hc : σ.gate.closed = true) :
    Ends σ t r e (failed (.serviceUnavailable ("Model is not loaded: " ++ gateClosedMessage)) true)
  /-- The model lists voices, and the voice is not among them. -/
  | voice {m v known} (hr : ¬s.RefusesText r) (hm : σ.model = some m)
    (hc : σ.gate.closed = false) (hv : (s.defaults.resolve r).voice = some v)
    (hk : m.reader.voices = some known) (hn : v ∉ known) :
    Ends σ t r e (failed (.badRequest ("unknown voice: " ++ v)) true)
  /-- It has passed the gate, and its voice is known. -/
  | speech {m call} (hr : ¬s.RefusesText r) (hm : σ.model = some m)
    (hp : σ.phase? t = some (.generating m call))
    (hk : m.reader.knows (s.defaults.resolve r).voice = true) :
    Ends σ t r e (Http.speech (m.file (Text.trim r.text) (s.defaults.resolve r)))

variable {s search} {σ : Service (s.backend search)} {t : Nat} {r : Request}

theorem parse_of_refusesText (h : s.RefusesText r) :
    ∃ e, SpokenText.parse s.textMaxChars r.text = .error e := by
  by_cases hempty : Text.trim r.text = ""
  · exact ⟨_, dif_pos hempty⟩
  · exact ⟨_, SpokenText.parse_of_lt hempty (h.resolve_left hempty)⟩

theorem parse_of_not_refusesText (h : ¬s.RefusesText r) :
    ∃ text, SpokenText.parse s.textMaxChars r.text = .ok text ∧ text.text = Text.trim r.text := by
  obtain ⟨hempty, hlong⟩ := not_or.mp h
  exact SpokenText.exists_parse_eq_ok hempty (not_lt.mp hlong)

theorem refusesText_of_parse {e : TextError}
    (h : SpokenText.parse s.textMaxChars r.text = .error e) : s.RefusesText r := by
  by_contra hr
  obtain ⟨text, hparse, -⟩ := parse_of_not_refusesText hr
  exact nomatch hparse.symm.trans h

/-- The response is the answer in its outer form. -/
theorem ofEnding_answer (σ : Service (s.backend search)) (r : Request) :
    ofEnding Wav.encoder (.spoken (s.answer search σ r) : Ending (s.backend search)) =
      s.response search σ r := by
  by_cases hempty : Text.trim r.text = ""
  · have hparse : SpokenText.parse s.textMaxChars r.text = .error .empty := dif_pos hempty
    simp only [answer, hparse, response, hempty, if_true]
    rfl
  by_cases hlong : s.textMaxChars < (Text.trim r.text).length
  · have hparse : SpokenText.parse s.textMaxChars r.text = .error (.tooLong s.textMaxChars) :=
      SpokenText.parse_of_lt hempty hlong
    simp only [answer, hparse, response, hempty, hlong, if_true]
    rfl
  obtain ⟨text, hparse, htext⟩ := parse_of_not_refusesText (not_or.mpr ⟨hempty, hlong⟩)
  simp only [answer, hparse, response, hempty, hlong, if_false]
  cases s.modelFor search σ with
  | error x => rfl
  | ok m =>
    simp only [answerAfterLoading, answerAtGate, LoadedModel.utterance, htext]
    cases σ.gate.closed with
    | true => rfl
    | false =>
      cases hk : m.reader.knows (s.defaults.resolve r).voice with
      | false => rfl
      | true => simp [ofEnding, LoadedModel.file_clip]

/-- The errand of a request whose text is not refused. -/
theorem errand_of_not_refusesText (h : ¬s.RefusesText r) :
    ∃ text, s.errand (.speak r) = .ok (.speak text (s.defaults.resolve r)) ∧
      text.text = Text.trim r.text := by
  obtain ⟨text, hparse, htext⟩ := parse_of_not_refusesText h
  exact ⟨text, by rw [errand, hparse], htext⟩

theorem errand_eq_ok {x : Errand} (h : s.errand (.speak r) = .ok x) : ¬s.RefusesText r ∧
    ∃ text, text.text = Text.trim r.text ∧ x = .speak text (s.defaults.resolve r) := by
  by_cases hr : s.RefusesText r
  · obtain ⟨e, he⟩ := parse_of_refusesText hr
    simp [errand, he] at h
  · obtain ⟨text, herrand, htext⟩ := errand_of_not_refusesText hr
    rw [herrand] at h
    exact ⟨hr, text, htext, (Except.ok.inj h).symm⟩

theorem parse_of_errand {text : SpokenText} {p : Parameters}
    (h : s.errand (.speak r) = .ok (.speak text p)) :
    SpokenText.parse s.textMaxChars r.text = .ok text := by
  rw [errand] at h
  split at h
  · cases h
  · next hparse =>
    cases h
    exact hparse

/-- What an order to speak has to say is the trimmed text of its request. -/
theorem errand_eq_speak {text : SpokenText} {p : Parameters}
    (h : s.errand (.speak r) = .ok (.speak text p)) :
    ¬s.RefusesText r ∧ text.text = Text.trim r.text ∧ p = s.defaults.resolve r := by
  obtain ⟨hr, text', htext, herrand⟩ := errand_eq_ok h
  obtain ⟨rfl, rfl⟩ : text = text' ∧ p = s.defaults.resolve r := by simpa using herrand
  exact ⟨hr, htext, rfl⟩

/-! ### Among others -/

variable {around : Surroundings} {orders : Nat → Option Session.Order}
  {p : Phase (s.backend search)} {e : ServiceEvent (s.backend search)}
  {x : Ending (s.backend search)}

/-- A request that goes on from the gate. -/
private theorem ends_heedGate {m : LoadedModel (s.backend search)} {q : Parameters}
    {text : SpokenText} (hr : ¬s.RefusesText r)
    (hq : q = s.defaults.resolve r) (hm : σ.model = some m) (hcoherent : m.Coherent)
    {told : Slot Nat × Admission}
    (hclosed : told.2 = .refused → σ.gate.closed = true)
    (hopen : told.2 = .admitted → σ.gate.closed = false)
    (hx : (σ.heedGate t m text q told).phase? t = some (.ended x)) :
    s.Ends search σ t r e (ofEnding Wav.encoder x) := by
  obtain rfl := hq
  obtain ⟨gate, admission⟩ := told
  cases admission with
  | waiting =>
    rw [Service.heedGate, Service.phase?_enter_self] at hx
    cases hx
  | refused =>
    rw [Service.heedGate, Service.phase?_enter_self] at hx
    cases hx
    exact .closed hr hm (hclosed rfl)
  | admitted =>
    rw [Service.heedGate] at hx
    cases hk : m.reader.knows (s.defaults.resolve r).voice with
    | true =>
      rw [Service.startGenerating_of_knows hcoherent hk, Service.phase?_enter_self] at hx
      cases hx
    | false =>
      rw [Service.startGenerating_of_not_knows hk, Service.phase?_enter_self] at hx
      obtain ⟨v, known, hv, hknown, hn⟩ := SyntheticProcessor.knows_eq_false_iff.mp hk
      cases hx
      rw [LoadedModel.utterance, if_neg (by simp [hk]), hv]
      exact .voice hr hm (hopen rfl) hv hknown hn

/-- A request that goes on while it seeks the model. -/
private theorem ends_seeking (hl : σ.LoadSound) (hp : σ.phase? t = some p)
    (hcourse : p.OnCourse s search around (.speak r) σ.model) {errand : Errand}
    (hs : p.seeking? = some errand) (hx : (σ.step e).phase? t = some (.ended x)) :
    s.Ends search σ t r e (ofEnding Wav.encoder x) := by
  obtain ⟨hr, text, htext, rfl⟩ := errand_eq_ok (hcourse.errand_eq hs)
  cases Service.outcome hl e hp hs with
  | seeks q hq hqs =>
    obtain rfl : q = .ended x := Option.some.inj (hq.symm.trans hx)
    cases hqs
  | told m hm ht =>
    rw [hx] at ht
    cases ht
  | dropped he ht =>
    rw [hx] at ht
    cases ht
  | failed q cause he hq hcause hm ht =>
    obtain rfl : q = p := Option.some.inj (hq.symm.trans hp)
    obtain ⟨detail, rfl⟩ := (hcourse.loadFailure hcause).load
    rw [hx] at ht
    cases ht
    have hin := (Service.loadingStanding_eq hp).trans
      (Phase.loadingStanding_of_loadFailure hcause)
    exact .load hr (hl.model_eq_none hin) he hp hcause

/-- An event that ends a task lets it go on. -/
private theorem goesOn_of_ended (hp : σ.phase? t = some p) (hlive : p.ending? = none)
    (hx : (σ.step e).phase? t = some (.ended x)) : e = .advance t ∨ e = .answer t := by
  have hmoved : (σ.step e).phase? t ≠ some p := by
    rintro hstay
    obtain rfl : p = .ended x := Option.some.inj (hstay.symm.trans hx)
    cases hlive
  have he : e.task? = some t := by
    by_contra hne
    exact hmoved ((Service.phase?_step_of_ne hne).trans hp)
  cases e with
  | request u r =>
    obtain rfl : u = t := by simpa [ServiceEvent.task?] using he
    simp [Service.step, hp] at hmoved
  | summon u =>
    obtain rfl : u = t := by simpa [ServiceEvent.task?] using he
    simp [Service.step, hp] at hmoved
  | advance u => exact .inl (by simpa [ServiceEvent.task?] using he)
  | answer u => exact .inr (by simpa [ServiceEvent.task?] using he)
  | cancel u =>
    obtain rfl : u = t := by simpa [ServiceEvent.task?] using he
    rw [Service.step_cancel hp] at hx
    cases p <;> simp [Service.abandon] at hx
  | close => simp [ServiceEvent.task?] at he
  | change w => simp [ServiceEvent.task?] at he

/-- Nobody ends by an event that changes nothing. -/
private theorem not_ended_of_step_eq (hp : σ.phase? t = some p) (hlive : p.ending? = none)
    (hstep : σ.step e = σ) : (σ.step e).phase? t ≠ some (.ended x) := by
  intro hx
  rw [hstep, hp] at hx
  obtain rfl := Option.some.inj hx
  cases hlive

/-- A request ends when it goes on by itself: it is refused for its text, or at the gate. -/
private theorem ends_advance (h : σ.OnCourse around orders) (hp : σ.phase? t = some p)
    (hcourse : p.OnCourse s search around (.speak r) σ.model) (hlive : p.ending? = none)
    (hs : p.seeking? = none) (hx : (σ.step (.advance t)).phase? t = some (.ended x)) :
    s.Ends search σ t r (.advance t) (ofEnding Wav.encoder x) := by
  have hmax : σ.settings.textMaxChars = s.textMaxChars := by rw [h.settings_eq]; rfl
  have hstep := Service.step_advance hp
  cases p with
  | arrived r' =>
    obtain rfl : r' = r := (Session.Order.speak.inj hcourse).symm
    cases hparse : SpokenText.parse s.textMaxChars r'.text with
    | error y =>
      have hrefused := Service.step_refused h.settings_eq hp hparse
      rw [hrefused, Service.phase?_enter_self] at hx
      cases hx
      exact .text (refusesText_of_parse hparse) hp hrefused
    | ok text =>
      rw [hstep, Service.advance, Service.accept, hmax, hparse, Service.phase?_enter_self] at hx
      cases hx
  | equipped m text q =>
    obtain ⟨hr, -, hq⟩ := errand_eq_speak hcourse.1
    rw [hstep] at hx
    exact ends_heedGate hr hq hcourse.2 (h.loaded m hcourse.2).coherent
      Slot.closed_of_ask Slot.open_of_ask hx
  | awaitingGate m text q =>
    obtain ⟨hr, -, hq⟩ := errand_eq_speak hcourse.1
    rw [hstep] at hx
    exact ends_heedGate hr hq hcourse.2 (h.loaded m hcourse.2).coherent
      Slot.closed_of_look Slot.open_of_look hx
  | generating m call => exact absurd hx (not_ended_of_step_eq hp hlive hstep)
  | ended y => cases hlive
  | _ => cases hs

/-- A request ends when a call returns: it has been spoken. -/
private theorem ends_answer (hp : σ.phase? t = some p)
    (hcourse : p.OnCourse s search around (.speak r) σ.model) (hlive : p.ending? = none)
    (hs : p.seeking? = none) (hx : (σ.step (.answer t)).phase? t = some (.ended x)) :
    s.Ends search σ t r (.answer t) (ofEnding Wav.encoder x) := by
  have hstep := Service.step_answer hp
  cases p with
  | generating m call =>
    obtain ⟨hm, text, q, he, hk, hcall⟩ := hcourse
    obtain ⟨hr, htext, rfl⟩ := errand_eq_speak he
    rw [htext] at hcall
    have hend :
        (Performance.speech [m.speech (Text.trim r.text) (s.defaults.resolve r)]).ending m =
          .spoken (m.utterance (Text.trim r.text) (s.defaults.resolve r)) :=
      LoadedModel.ending_speech hk
    rw [hstep, Service.answer, Service.finishGenerating, Service.phase?_enter_self, hcall,
      hend, LoadedModel.utterance, if_pos hk] at hx
    cases hx
    rw [ofEnding, LoadedModel.file_clip]
    exact .speech hr hm hp hk
  | arrived r' => exact absurd hx (not_ended_of_step_eq hp hlive hstep)
  | equipped m text q => exact absurd hx (not_ended_of_step_eq hp hlive hstep)
  | awaitingGate m text q => exact absurd hx (not_ended_of_step_eq hp hlive hstep)
  | ended y => cases hlive
  | _ => cases hs

/-- **Among others.** When a request ends, it ends for a reason that its response tells. -/
theorem ends_of_step (h : σ.OnCourse around orders) (hl : σ.LoadSound)
    (ht : orders t = some (.speak r)) (hp : σ.phase? t = some p) (hlive : p.ending? = none)
    (hx : (σ.step e).phase? t = some (.ended x)) :
    s.Ends search σ t r e (ofEnding Wav.encoder x) := by
  obtain ⟨order, ht', hcourse⟩ := h.phases t p hp
  obtain rfl : order = .speak r := Option.some.inj (ht'.symm.trans ht)
  cases hs : p.seeking? with
  | some errand =>
    -- While it seeks the model, a task ends as loading has it, whichever event that is.
    exact ends_seeking hl hp hcourse hs hx
  | none =>
    obtain rfl | rfl := goesOn_of_ended hp hlive hx
    · exact ends_advance h hp hcourse hlive hs hx
    · exact ends_answer hp hcourse hlive hs hx

/-! ### On its own -/

variable {S : Session (s.backend search)}

/-- A request to an idle session is served by events about its own task. -/
theorem speak_idle (h : σ.OnCourse around orders) (hl : σ.LoadSound) (hg : σ.GateSound)
    (hS : S.service = σ) (hidle : S.Idle) (r : Request) :
    (S.speak Wav.encoder r).2 = s.response search σ r ∧ (S.speak Wav.encoder r).1.Idle ∧
      ∃ es, (S.speak Wav.encoder r).1.service = σ.run es := by
  subst hS
  have ha : (S.service.enter S.next (.arrived r)).Alone S.next :=
    hidle.step_request r ▸ (hidle.alone hl hg S.next).step (by simp [ServiceEvent.task?])
  obtain ⟨after, hafter⟩ := Service.finishes_arrived ha h.settings_eq
    (fun m hm => (h.loaded m hm).coherent) (Service.phase?_enter_self ..)
  rw [answer_enter] at hafter
  obtain ⟨later, hspeak⟩ := hidle.speak hl hg (fun _ _ => rfl) Wav.encoder hafter (by decide)
  obtain ⟨es, hes, -⟩ := hidle.exists_run hafter
  rw [hspeak]
  dsimp only
  exact ⟨ofEnding_answer S.service r, hidle.idle_again hafter later, es, hes⟩

/-- The **form** of a response to a request for speech: a sound, or an error whose body repeats the
status. It is never an internal error. -/
def InForm (x : HttpResponse) : Prop :=
  x.status = 200 ∧ ("content-type", "audio/wav") ∈ x.headers ∨
    (x.status = 400 ∨ x.status = 503) ∧ ∃ message, x.body = jsonBytes (.object
      [("errno", .integer x.status), ("error", .string message), ("data", .null)])

private theorem inForm_of_badRequest (message : String) :
    InForm (failed (.badRequest message) true) :=
  .inr ⟨.inl rfl, message, rfl⟩

private theorem inForm_of_serviceUnavailable (message : String) :
    InForm (failed (.serviceUnavailable message) true) :=
  .inr ⟨.inr rfl, message, rfl⟩

/-- However a request ends, its response has the form. -/
theorem Ended.inForm {model : Option (LoadedModel (s.backend search))}
    (h : s.Ended search around (.speak r) model x) : InForm (ofEnding Wav.encoder x) := by
  cases h with
  | text => exact inForm_of_badRequest _
  | failed h =>
    obtain ⟨-, _, -, rfl⟩ := errand_eq_ok h
    exact inForm_of_serviceUnavailable _
  | closed => exact inForm_of_serviceUnavailable _
  | loaded h =>
    obtain ⟨-, _, -, herrand⟩ := errand_eq_ok h
    cases herrand
  | @uttered m text p h hm =>
    rw [LoadedModel.utterance]
    split
    · rw [ofEnding, LoadedModel.file_clip]
      exact .inl ⟨rfl, List.mem_cons_self⟩
    · exact inForm_of_badRequest _

/-! ### Every history -/

end Settings

end SpeechService
