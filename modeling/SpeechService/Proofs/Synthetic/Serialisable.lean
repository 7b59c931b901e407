import SpeechService.Proofs.Http.FairTurns
import SpeechService.Proofs.Service.Sessions
import SpeechService.Proofs.Synthetic.ExactOutcome

/-!
# Requests at the same time

However the requests of many clients get mixed up at a front desk, and whoever goes away in the
meantime, everybody else gets the response that the same request gets when it comes alone to a fresh
service (`Settings.serialisable_run`). The files of the model stay as they are and can be loaded,
and the gate stays open.

The reason is that a task ends as its order says (`Settings.Ended`), and that with fixed files there
is only one model to be loaded, so that nothing is left on which the end could depend but the
request (`Settings.Ended.response`).
-/

namespace SpeechService

open Http

/-- **Fixed** surroundings: the files stay as they are, and the gate stays open. -/
def Surroundings.fixed (files : Files) : Surroundings := ⟨(· = files), False⟩

namespace Settings

/-- The response to a request that comes **alone** to a fresh service. -/
def responseAlone (s : Settings) (search : DeviceSearch) (files : Files) (r : Request) :
    HttpResponse :=
  (Session.speak ({ service := s.start search files } : Session (s.backend search))
    Wav.encoder r).2

variable {s : Settings} {search : DeviceSearch} {files : Files} {m : LoadedModel (s.backend search)}
  {r : Request}

/-- A new service has no tasks. -/
theorem phase?_start (s : Settings) (search : DeviceSearch) (files : Files) (t : Nat) :
    (s.start search files).phase? t = none := rfl

theorem responseAlone_eq (s : Settings) (search : DeviceSearch) (files : Files) (r : Request) :
    s.responseAlone search files r = s.response search (s.start search files) r := by
  have hl : (s.start search files).LoadSound := Service.loadSound_new _ _
  have hg : (s.start search files).GateSound := Service.gateSound_new _ _
  have hcourse : (s.start search files).OnCourse (.fixed files) fun _ => none :=
    Service.onCourse_start s search rfl
  have hidle : ({ service := s.start search files } : Session (s.backend search)).Idle := by
    refine ⟨rfl, rfl, fun t p hp => ?_, fun t _ => phase?_start s search files t⟩
    rw [phase?_start] at hp
    cases hp
  exact (speak_idle hcourse hl hg rfl hidle r).1

/-! ### One model, one end -/

/-- From fixed files only one model is loaded. -/
theorem Loaded.eq_of_fixed (hm : s.loadModel search files = .ok m)
    {m' : LoadedModel (s.backend search)}
    (h : s.Loaded search (Surroundings.fixed files).files m') : m' = m := by
  cases h with
  | @parts f g engine processor hf hg he hp =>
    obtain rfl : f = files := hf
    obtain rfl : g = f := hg
    rw [loadModel_of_ok he, hp] at hm
    exact Except.ok.inj hm

/-- From fixed files that can be loaded, loading does not fail. -/
theorem not_loadFailure_of_fixed (hm : s.loadModel search files = .ok m) {x : EngineError} :
    ¬s.LoadFailure search (Surroundings.fixed files).files x := by
  rintro ⟨f, hf, hfail⟩
  obtain rfl : f = files := hf
  cases he : s.loadEngine search f with
  | error y =>
    rw [loadModel_of_error he] at hm
    cases hm
  | ok engine =>
    rw [loadModel_of_ok he] at hm
    obtain hfail | hfail := hfail
    · simp [he] at hfail
    · simp [hfail, Except.map] at hm

/-- **One end.** However a task ends, its response is the one that its request gets alone. -/
theorem Ended.response (hm : s.loadModel search files = .ok m)
    {model : Option (LoadedModel (s.backend search))} {x : Ending (s.backend search)}
    (hmodel : ∀ m', model = some m' → m' = m)
    (h : s.Ended search (.fixed files) (.speak r) model x) :
    ofEnding Wav.encoder x = s.responseAlone search files r := by
  have hmodelFor : s.modelFor search (s.start search files) = .ok m := hm
  rw [responseAlone_eq, ← ofEnding_answer, Settings.answer]
  cases h with
  | @text e h =>
    have hparse : SpokenText.parse s.textMaxChars r.text = .error e := by
      rw [errand] at h
      split at h
      · next hp => rw [hp, Except.error.inj h]
      · cases h
    rw [hparse]
  | failed h hx => exact absurd hx (not_loadFailure_of_fixed hm)
  | closed h hc => exact hc.elim
  | loaded h =>
    obtain ⟨-, _, -, herrand⟩ := errand_eq_ok h
    cases herrand
  | @uttered m' text p h hm' =>
    obtain rfl : m' = m := hmodel m' hm'
    obtain ⟨-, -, rfl⟩ := errand_eq_speak h
    rw [parse_of_errand h, hmodelFor]
    rfl

end Settings

/-! ### The front desk on course -/

namespace FrontDesk

variable {s : Settings} {search : DeviceSearch} {files : Files}
  {m : LoadedModel (s.backend search)} {d : FrontDesk (s.backend search)} {n : Nat}

/-- Who **ordered** what: a client what it requests, and anybody else the model. -/
def orders {B : Backend} (d : FrontDesk B) (n : Nat) : Option Session.Order :=
  some ((d.visit? n).elim .load fun v => .speak v.request)

theorem orders_eq {B : Backend} {d : FrontDesk B} {v : Visit} (hv : d.visit? n = some v) :
    d.orders n = some (.speak v.request) := by
  rw [orders, hv]
  rfl

/-- A client that comes to another stage does not change the orders. -/
theorem orders_put {B : Backend} {d : FrontDesk B} {v w : Visit} (hv : d.visit? n = some v)
    (hw : w.request = v.request) : (d.put n w).orders = d.orders := by
  funext k
  by_cases hk : k = n
  · subst hk
    rw [orders_eq hv, orders_eq (visit?_put_self d k w), hw]
  · rw [orders, orders, visit?_put_of_ne d w hk]

/-- A front desk is **on course** when its service is, by the orders of the clients, and every
response is the one that its request gets alone. -/
structure OnCourse (d : FrontDesk (s.backend search)) (files : Files) : Prop where
  sound : d.Sound
  course : d.service.OnCourse (.fixed files) d.orders
  answered : ∀ n v y, d.visit? n = some v → v.stage = .answered y →
    y = s.responseAlone search files v.request

theorem onCourse_frontDesk (s : Settings) (search : DeviceSearch) (files : Files) :
    (s.frontDesk search files).OnCourse files where
  sound := sound_new (B := s.backend search) s.service files
  course := by
    refine (Service.onCourse_start s search rfl).congr fun t p hp => ?_
    rw [Settings.phase?_start] at hp
    cases hp
  answered n v _ hv := by
    have hnone : (s.frontDesk search files).visit? n = none := rfl
    rw [hnone] at hv
    cases hv

namespace OnCourse

/-- The service stays on course. -/
private theorem course_step (h : d.OnCourse files) (e : DeskEvent) :
    (d.step Wav.encoder e).service.OnCourse (.fixed files) (d.step Wav.encoder e).orders := by
  have hstep := d.stepped Wav.encoder e
  generalize d.step Wav.encoder e = after at hstep ⊢
  cases hstep with
  | still => exact h.course
  | @come n r hn =>
    refine h.course.congr fun k p hp => ?_
    have hk : k ≠ n := by
      rintro rfl
      rw [(eq_none_of_not_knows hn).2] at hp
      cases hp
    rw [orders, orders, visit?_put_of_ne d _ hk]
  | @summon n hn =>
    obtain ⟨hv, hp⟩ := eq_none_of_not_knows hn
    have hnote : d.service.note d.orders (.summon n) = d.orders := by
      have horder : d.orders n = some .load := by rw [orders, hv]; rfl
      rw [Service.note, hp, ← horder, Function.update_eq_self]
      rfl
    exact hnote ▸ h.course.step h.sound.load (.summon n) trivial
  | @begin n v hv hs =>
    have hp : d.service.phase? n = none := (h.sound.paired n v hv).1 hs
    have hnote : d.service.note d.orders (.request n v.request) = d.orders := by
      rw [Service.note, hp, ← orders_eq hv, Function.update_eq_self]
      rfl
    have hcourse := h.course.step h.sound.load (.request n v.request) trivial
    rw [hnote] at hcourse
    have horders : ((d.inside (.request n v.request)).put n { v with stage := .waiting }).orders =
        d.orders := orders_put (d := d.inside _) hv rfl
    rw [horders]
    exact hcourse
  | @advance n => exact h.course.step h.sound.load (.advance n) trivial
  | @answer n => exact h.course.step h.sound.load (.answer n) trivial
  | respond hv =>
    rw [orders_put hv (by rfl)]
    exact h.course
  | leave hv =>
    rw [orders_put hv (by rfl)]
    exact h.course

/-- What is passed on to a client is the response that its request gets alone. -/
private theorem response_eq (hm : s.loadModel search files = .ok m) (h : d.OnCourse files)
    {v : Visit} (hv : d.visit? n = some v) {x : Ending (s.backend search)}
    (hx : d.service.phase? n = some (.ended x)) :
    ofEnding Wav.encoder x = s.responseAlone search files v.request := by
  obtain ⟨order, horder, hcourse⟩ := h.course.phases n _ hx
  obtain rfl : order = .speak v.request := Option.some.inj (horder.symm.trans (orders_eq hv))
  have hended : s.Ended search (.fixed files) (.speak v.request) d.service.model x := hcourse
  exact hended.response hm fun m' hm' => (h.course.loaded m' hm').eq_of_fixed hm

/-- **One step.** Every event keeps a front desk on course. -/
theorem step (hm : s.loadModel search files = .ok m) (h : d.OnCourse files) (e : DeskEvent) :
    (d.step Wav.encoder e).OnCourse files where
  sound := h.sound.step e
  course := h.course_step e
  answered k v y hv hs := by
    by_cases hk : k = e.number
    · subst hk
      have hstep := d.stepped Wav.encoder e
      generalize d.step Wav.encoder e = after at hstep hv
      cases hstep with
      | come hn =>
        obtain rfl := eq_of_visit?_put hv
        cases hs
      | begin hw =>
        obtain rfl := eq_of_visit?_put hv
        cases hs
      | leave hw =>
        obtain rfl := eq_of_visit?_put hv
        cases hs
      | respond hw hwaits hx =>
        obtain rfl := eq_of_visit?_put hv
        obtain rfl := Visit.Stage.answered.inj hs
        exact response_eq hm h hw hx
      | _ => exact h.answered _ v y hv hs
    · rw [visit?_step_of_ne hk] at hv
      exact h.answered k v y hv hs

/-- **Every run.** -/
theorem run (hm : s.loadModel search files = .ok m) (h : d.OnCourse files)
    (es : List DeskEvent) : (d.run Wav.encoder es).OnCourse files := by
  induction es generalizing d with
  | nil => exact h
  | cons e es ih => exact ih (h.step hm e)

end OnCourse

end FrontDesk

/-! ### Sessions -/

namespace Settings

variable {s : Settings} {search : DeviceSearch} {files : Files}

/-- A service that is on course stays so while a session goes on. -/
private theorem keeps_onCourse (orders : Nat → Option Session.Order) :
    Session.Keeps fun σ : Service (s.backend search) =>
      σ.OnCourse (.fixed files) orders ∧ σ.LoadSound where
  advance _ t h := ⟨h.1.step h.2 (.advance t) trivial, h.2.step _⟩
  answer _ t h := ⟨h.1.step h.2 (.answer t) trivial, h.2.step _⟩
  elapse σ _ h := ⟨h.1.step h.2 (.change σ.world) h.1.files, h.2.step _⟩

/-- It stays so while clients come whose requests are the orders of the next numbers. -/
private theorem calm_start {orders : Nat → Option Session.Order}
    {S : Session (s.backend search)} (rs : List Request)
    (ho : ∀ i r, rs[i]? = some r → orders (S.next + i) = some (.speak r))
    (h : S.Calm fun σ => σ.OnCourse (.fixed files) orders ∧ σ.LoadSound) :
    ((rs.map Session.Order.speak).foldl Session.start S).Calm fun σ =>
      σ.OnCourse (.fixed files) orders ∧ σ.LoadSound := by
  induction rs generalizing S with
  | nil => exact h
  | cons r rs ih =>
    -- The order of the next number is this request, so that noting it changes nothing.
    have hr : orders S.next = some (.speak r) := ho 0 r rfl
    have hnote : S.service.note orders (.request S.next r) = orders := by
      rw [Service.note, ← hr, Function.update_eq_self]
      exact ite_self _
    have hcourse := h.service.1.step h.service.2 (.request S.next r) trivial
    rw [hnote] at hcourse
    refine ih (fun i r' hi => ?_) ⟨⟨hcourse, h.service.2.step (.request S.next r)⟩, h.due⟩
    have hnext : (S.start (.speak r)).next + i = S.next + (i + 1) := by
      show S.next + 1 + i = S.next + (i + 1)
      omega
    rw [hnext]
    exact ho (i + 1) r' hi

/-- **Several clients at once.** However a session arranges the tasks of some clients, what it tells
each of them is the response that its request gets alone. -/
private theorem response_of_serve {m : LoadedModel (s.backend search)}
    (hm : s.loadModel search files = .ok m) (rs : List Request) {i : Nat} {r : Request}
    {x : Ending (s.backend search)} (hr : rs[i]? = some r)
    (hx : (Session.serve ({ service := s.start search files } : Session (s.backend search))
      (rs.map .speak) none).2[i]? = some (some x)) :
    ofEnding Wav.encoder x = s.responseAlone search files r := by
  have hstart : (s.start search files).OnCourse (.fixed files)
      fun t => rs[t]?.map Session.Order.speak := by
    refine (Service.onCourse_start s search rfl).congr fun t p hp => ?_
    rw [phase?_start] at hp
    cases hp
  have hfresh : Session.Calm (fun σ : Service (s.backend search) =>
      σ.OnCourse (.fixed files) (fun t => rs[t]?.map Session.Order.speak) ∧ σ.LoadSound)
      { service := s.start search files } :=
    ⟨⟨hstart, Service.loadSound_new _ _⟩, fun a ha => by cases ha⟩
  -- The numbers of a fresh session are the places on the list.
  have hcalm := (calm_start rs (fun j r' hj => by simp [hj]) hfresh).settle (keeps_onCourse _)
    (Session.turns (rs.map Session.Order.speak).length)
  have hlt : i < (rs.map Session.Order.speak).length := by
    rw [List.length_map]
    exact (List.getElem?_eq_some_iff.mp hr).1
  rw [Session.serve_none] at hx
  simp only [List.getElem?_map, List.getElem?_range hlt, Option.map_some, Nat.zero_add] at hx
  obtain ⟨p, hp, hend⟩ := Option.bind_eq_some_iff.mp (Option.some.inj hx)
  obtain ⟨order, horder, hcourse⟩ := hcalm.service.1.phases i p hp
  rw [hr] at horder
  obtain rfl : Session.Order.speak r = order := Option.some.inj horder
  cases p <;> cases hend
  exact Ended.response hm (fun m' hm' => (hcalm.service.1.loaded m' hm').eq_of_fixed hm) hcourse

end Settings

/-! ### Every order of events -/

namespace Settings

/-- What becomes of the requests at a front desk after some events, whatever their order was. -/
structure Serialisable (s : Settings) (search : DeviceSearch) (files : Files)
    (es : List DeskEvent) (d : FrontDesk (s.backend search)) : Prop where
  /-- Every visit is that of a client that came, and only who left has gone. -/
  origin : ∀ n v, d.visit? n = some v →
    .come n v.request ∈ es ∧ (v.stage = .gone → .leave n ∈ es)
  /-- Every client that comes under a new number has a visit. -/
  came : ∀ before after n r, es = before ++ .come n r :: after →
    (∀ e ∈ before, e.isNew = true → e.number ≠ n) → ∃ v, d.visit? n = some v ∧ v.request = r
  /-- No two tasks generate at the same time. -/
  apart : d.service.generators.length ≤ 1
  /-- Who generates has the gate, whether its client is still there or not. -/
  held : ∀ n m call, d.service.phase? n = some (.generating m call) →
    d.service.gate.tenure = .owned n
  /-- Every response is the one that the same request gets alone from a fresh service. -/
  answered : ∀ n v y, d.visit? n = some v → v.stage = .answered y →
    y = s.responseAlone search files v.request
  /-- A client that leaves changes neither the service nor the visit of anybody else. -/
  leaving : ∀ n, (d.step Wav.encoder (.leave n)).service = d.service ∧
    ∀ k ≠ n, (d.step Wav.encoder (.leave n)).visit? k = d.visit? k
  /-- Whoever does not leave is served, if only everybody gets a turn again and again. -/
  served : ∀ rounds : List (List DeskEvent), (∀ round ∈ rounds, d.FairRound round) →
    10 * es.length ≤ rounds.length → ∀ n v, d.visit? n = some v →
      .leave n ∉ es ++ rounds.flatten →
        (d.run Wav.encoder rounds.flatten).visit? n =
          some { v with stage := .answered (s.responseAlone search files v.request) }
  /-- A session that serves some clients at once tells each of them the same. -/
  together : ∀ (rs : List Request) (i : Nat) r x, rs[i]? = some r →
    (Session.serve ({ service := s.start search files } : Session (s.backend search))
      (rs.map .speak) none).2[i]? = some (some x) →
        ofEnding Wav.encoder x = s.responseAlone search files r

variable {s : Settings} {search : DeviceSearch} {files : Files}

/-- A client that does not leave gets its response by fair rounds. -/
private theorem served {m : LoadedModel (s.backend search)}
    (hm : s.loadModel search files = .ok m) {es : List DeskEvent}
    {rounds : List (List DeskEvent)}
    (hfair : ∀ round ∈ rounds,
      ((s.frontDesk search files).run Wav.encoder es).FairRound round)
    (hlong : 10 * es.length ≤ rounds.length) {n : Nat} {v : Visit}
    (hv : ((s.frontDesk search files).run Wav.encoder es).visit? n = some v)
    (hstays : .leave n ∉ es ++ rounds.flatten) :
    (((s.frontDesk search files).run Wav.encoder es).run Wav.encoder rounds.flatten).visit? n =
      some { v with stage := .answered (s.responseAlone search files v.request) } := by
  have hcourse := (FrontDesk.onCourse_frontDesk s search files).run hm es
  have hend := hcourse.run hm rounds.flatten
  -- The numbers that came up so far are as many as the events at most.
  have hnobody : (s.frontDesk search files).CoveredBy ∅ := by
    intro k hk
    cases hk
  obtain ⟨numbers, hcover, hcard⟩ : ∃ numbers : Finset Nat,
      ((s.frontDesk search files).run Wav.encoder es).CoveredBy numbers ∧
        numbers.card ≤ (∅ : Finset Nat).card + es.length := hnobody.run es
  have hrounds : 10 * numbers.card ≤ rounds.length := by
    rw [Finset.card_empty] at hcard
    omega
  have hrank : (((s.frontDesk search files).run Wav.encoder es).run Wav.encoder
      rounds.flatten).rank numbers = 0 :=
    FrontDesk.rank_run_flatten_eq_zero hcourse.sound hcover hfair hrounds
  obtain ⟨w, hw, hrequest⟩ : ∃ w, (((s.frontDesk search files).run Wav.encoder es).run
      Wav.encoder rounds.flatten).visit? n = some w ∧ w.request = v.request :=
    FrontDesk.request_run hv rounds.flatten
  have hmem : n ∈ numbers := hcover n (by simp [FrontDesk.knows, hv])
  -- With nothing left to do, the client has gone or was answered.
  obtain hgone | ⟨y, hy⟩ := FrontDesk.stage_of_rank_eq_zero hrank hmem hw
  · rw [← FrontDesk.run_append] at hw
    exact absurd ((FrontDesk.origin_run rfl _ hw).2 hgone) hstays
  · rw [hend.answered n w y hw hy] at hy
    rw [hw, ← hrequest, ← hy]

/-- **Serialisability.** For every order of events, with fixed files from which the model can be
loaded. -/
theorem serialisable_run (s : Settings) (search : DeviceSearch) (files : Files)
    (hload : ∃ m, s.loadModel search files = .ok m) (es : List DeskEvent) :
    s.Serialisable search files es ((s.frontDesk search files).run Wav.encoder es) := by
  obtain ⟨m, hm⟩ := hload
  have hcourse := (FrontDesk.onCourse_frontDesk s search files).run hm es
  have hsound := hcourse.sound
  refine ⟨fun n v hv => FrontDesk.origin_run rfl es hv, ?_, ?_, ?_, hcourse.answered, ?_, ?_,
    fun rs i r x => response_of_serve hm rs⟩
  · rintro before after n r rfl hbefore
    have hnobody := (FrontDesk.onCourse_frontDesk s search files).sound
    exact FrontDesk.exists_visit_of_come hnobody rfl hbefore r
  · rw [hsound.gate.generators_eq hsound.nodup]
    exact Option.length_toList_le
  · intro n m' call hp
    exact (hsound.gate.inside_iff n).mp (Service.gateStanding_eq hp)
  · exact fun n => ⟨FrontDesk.service_step_leave Wav.encoder _ n,
      fun k hk => FrontDesk.visit?_step_of_ne hk⟩
  · exact fun rounds hfair hlong n v hv hstays => served hm hfair hlong hv hstays

/-- A model in the hub can be loaded without any files. One client goes away while it waits, and the
other one is served. -/
theorem serialisable_run_without_files :
    let s : Settings := { synthetic := { samplesPerToken := 1 } }
    let round : List DeskEvent :=
      [.advance 7, .answer 7, .advance 0, .answer 0, .advance 1, .answer 1]
    let es : List DeskEvent := [.summon 7, .come 0 { text := "a" }, .come 1 { text := "b" },
      .begin 0, .advance 7, .begin 1, .advance 0, .leave 0] ++ round ++ round ++ round
        ++ [.respond 1]
    let d := (s.frontDesk {} {}).run Wav.encoder es
    (∃ m, s.loadModel {} {} = .ok m) ∧ s.Serialisable {} {} es d ∧
      ∃ v, d.visit? 1 = some v ∧ v.stage = .answered (s.responseAlone {} {} { text := "b" }) := by
  intro s round es d
  have hload : ∃ m, s.loadModel {} {} = .ok m := by
    dsimp only [s]
    exact ⟨_, rfl⟩
  have hserialisable : s.Serialisable {} {} es d := serialisable_run s {} {} hload es
  obtain ⟨v, hv, hrequest⟩ := hserialisable.came [.summon 7, .come 0 { text := "a" }] _ 1
    { text := "b" } rfl (by decide)
  have hrank : (d.visit? 1).map (·.stage.rank) = some 0 := by decide +kernel
  rw [hv] at hrank
  -- Nothing is left to do for a client that does not leave, so that it was served.
  obtain hgone | ⟨y, hy⟩ : v.stage = .gone ∨ ∃ y, v.stage = .answered y := by
    cases hs : v.stage <;> simp [hs, Visit.Stage.rank] at hrank ⊢
  · exact absurd ((hserialisable.origin 1 v hv).2 hgone) (by decide)
  · rw [hserialisable.answered 1 v y hv hy, hrequest] at hy
    exact ⟨hload, hserialisable, v, hv, hy⟩

end Settings

end SpeechService
