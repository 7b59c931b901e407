import SpeechService.Http.Exchange
import SpeechService.Proofs.Service.Final
import SpeechService.Proofs.Synthetic.Course

/-!
# Readiness

What a service with the synthetic backend says about itself, over its whole life. It says that it is
ready from the moment on at which some task has completed the loading of the model, and never
before; from then on it names the device that every generation runs on. To ask it changes nothing.

Readiness is final. Once the service is ready the files of the model have no say any more: they may
be changed or taken away, and everybody still gets the same responses. So a service whose model is
loaded can be told from another one with the same requests and different changes of the files by
nothing at all (`Settings.reliable_run`).
-/

namespace SpeechService

/-! ### What is reported -/

/-- The **report** of a service on itself. -/
def Http.report (ready : Bool) (modelId : String) (device : Device) (withBody : Bool) :
    HttpResponse :=
  let body := jsonBytes (.object
    [("ok", .bool ready), ("model", .string modelId), ("device", .string device.name)])
  { status := 200, headers := [jsonHeader, lengthHeader body],
    body := if withBody then body else [] }

/-- To ask a service how it is changes nothing. -/
theorem Http.exchange_health {B : Backend} (S : Session B) (encoder : Encoder) (bodyLimit : Nat)
    {r : HttpRequest} {withBody : Bool} (hpath : r.path = "/healthz")
    (hmethod : r.method = (if withBody then "GET" else "HEAD")) :
    S.exchange encoder bodyLimit r = (S, Http.health S.service withBody) := by
  rw [Session.exchange, HttpRequest.decide, if_pos hpath, hmethod]
  cases withBody <;> rfl

/-! ### Histories of sessions -/

namespace Session

variable {B : Backend}

/-- What may **occur** in a session: a request over HTTP, some clients at once, after whose coming
the gate may be closed, or a change of the world by itself. -/
inductive Occurrence (B : Backend) where
  | exchange (request : HttpRequest)
  | serve (orders : List Order) (closeAfter : Option Nat)
  | change (world : B.World)

/-- The world changes by itself. -/
def Occurrence.isChange : Occurrence B → Bool
  | .change _ => true
  | _ => false

/-- What an occurrence makes of a session, and what it is answered. -/
def undergo (S : Session B) (encoder : Encoder) (bodyLimit : Nat) :
    Occurrence B → Session B × List (Option HttpResponse)
  | .exchange r =>
    let (after, response) := S.exchange encoder bodyLimit r
    (after, [some response])
  | .serve orders closeAfter =>
    let (after, endings) := S.serve orders closeAfter
    (after, endings.map (·.map (Http.ofEnding encoder)))
  | .change world => ({ S with service := { S.service with world } }, [])

/-- What some occurrences make of a session, and all that they are answered. -/
def history (S : Session B) (encoder : Encoder) (bodyLimit : Nat) :
    List (Occurrence B) → Session B × List (Option HttpResponse)
  | [] => (S, [])
  | o :: os =>
    let (after, responses) := S.undergo encoder bodyLimit o
    let (last, others) := after.history encoder bodyLimit os
    (last, responses ++ others)

variable {R : Service B → Service B → Prop} {S S' : Session B} (encoder : Encoder)
  (bodyLimit : Nat)

namespace InStep

/-- Two sessions in step give the same response to a request for speech. -/
theorem speak (hk : KeepsClients R) (h : InStep R S S') (r : Request) :
    InStep R (S.speak encoder r).1 (S'.speak encoder r).1 ∧
      (S'.speak encoder r).2 = (S.speak encoder r).2 := by
  obtain ⟨hserve, hendings⟩ := h.serve hk [.speak r] none
  rw [Session.speak, Session.speak]
  generalize S.serve [.speak r] none = x, S'.serve [.speak r] none = x' at hserve hendings
  obtain ⟨T, endings⟩ := x
  obtain ⟨T', endings'⟩ := x'
  obtain rfl : endings' = endings := hendings
  rcases endings' with _ | ⟨_ | x, _ | ⟨y, rest⟩⟩ <;> exact ⟨hserve, rfl⟩

/-- Two sessions in step answer the same to whatever occurs, as far as it is answered. -/
theorem undergo (hk : KeepsClients R)
    (hr : ∀ s s', R s s' → ∀ withBody, Http.health s' withBody = Http.health s withBody)
    (h : InStep R S S') (o : Occurrence B) (ho : o.isChange = false) :
    InStep R (S.undergo encoder bodyLimit o).1 (S'.undergo encoder bodyLimit o).1 ∧
      (S'.undergo encoder bodyLimit o).2 = (S.undergo encoder bodyLimit o).2 := by
  cases o with
  | change world => cases ho
  | serve orders closeAfter =>
    obtain ⟨hserve, hendings⟩ := h.serve hk orders closeAfter
    exact ⟨hserve, congrArg (List.map (Option.map (Http.ofEnding encoder))) hendings⟩
  | exchange r =>
    simp only [Session.undergo, Session.exchange]
    cases r.decide bodyLimit with
    | reply response => exact ⟨h, rfl⟩
    | health withBody => exact ⟨h, congrArg (fun x => [some x]) (hr _ _ h.service withBody)⟩
    | speak request =>
      obtain ⟨hspeak, hresponse⟩ := h.speak encoder hk request
      exact ⟨hspeak, congrArg (fun x => [some x]) hresponse⟩

/-- A change of the world in one of two sessions. -/
theorem change (hchange : ∀ s s', R s s' → ∀ world, R { s with world } s') (h : InStep R S S')
    (world : B.World) : InStep R { S with service := { S.service with world } } S' :=
  ⟨hchange _ _ h.service world, by rw [h.eq]⟩

/-- **Histories.** Where changes of the world keep two sessions in step, they leave no trace in what
is answered. -/
theorem history_filter (hk : KeepsClients R)
    (hr : ∀ s s', R s s' → ∀ withBody, Http.health s' withBody = Http.health s withBody)
    (hchange : ∀ s s', R s s' → ∀ world, R { s with world } s') (h : InStep R S S')
    (os : List (Occurrence B)) :
    InStep R (S.history encoder bodyLimit os).1
        (S'.history encoder bodyLimit (os.filter (!·.isChange))).1 ∧
      (S'.history encoder bodyLimit (os.filter (!·.isChange))).2 =
        (S.history encoder bodyLimit os).2 := by
  induction os generalizing S S' with
  | nil => exact ⟨h, rfl⟩
  | cons o os ih =>
    cases ho : o.isChange with
    | false =>
      rw [List.filter_cons_of_pos (by simp [ho])]
      obtain ⟨hnow, hresponses⟩ := h.undergo encoder bodyLimit hk hr o ho
      obtain ⟨hlater, hothers⟩ := ih hnow
      exact ⟨hlater, congrArg₂ (· ++ ·) hresponses hothers⟩
    | true =>
      rw [List.filter_cons_of_neg (by simp [ho])]
      cases o with
      | change world => exact ih (h.change hchange world)
      | _ => cases ho

end InStep

end Session

/-! ### Readiness -/

namespace Service

variable {B : Backend} {s : Service B}

/-- **Truth.** There is a model when some task has completed an attempt to load it. -/
theorem isReady_run_iff (h : s.LoadSound) (es : List (ServiceEvent B)) :
    (s.run es).isReady = true ↔ s.isReady = true ∨
      ∃ x ∈ s.moments es, x.service.attemptEnd? x.event = some .published := by
  induction es generalizing s with
  | nil => simp [moments]
  | cons e es ih =>
    have hnow : (s.step e).isReady = true ↔
        s.isReady = true ∨ s.attemptEnd? e = some .published := by
      have hcount := isReady_step h e
      cases hafter : (s.step e).isReady <;> cases hbefore : s.isReady <;>
        rcases hend : s.attemptEnd? e with _ | _ | _ | _ <;> simp_all
    rw [run_cons, ih (h.step e), hnow, moments, or_assoc]
    simp

/-- **Finality.** Once there is a model, the world has no say in what is answered. -/
theorem Final.history (hB : B.LooksToLoad) {m : LoadedModel B} {S : Session B}
    (hm : S.service.Final m) (encoder : Encoder) (bodyLimit : Nat)
    {os os' : List (Session.Occurrence B)}
    (hos : os.filter (!·.isChange) = os'.filter (!·.isChange)) :
    (S.history encoder bodyLimit os).2 = (S.history encoder bodyLimit os').2 ∧
      (S.history encoder bodyLimit os).1.service.Final m := by
  have hself : Session.InStep (fun s s' => s.Final m ∧ s.WorldApart s') S S :=
    ⟨⟨hm, .mk S.service.world⟩, rfl⟩
  have hhealth : ∀ s s' : Service B, s.Final m ∧ s.WorldApart s' →
      ∀ withBody, Http.health s' withBody = Http.health s withBody := by
    rintro s _ ⟨-, ⟨w⟩⟩ withBody
    rfl
  have hchange : ∀ s s' : Service B, s.Final m ∧ s.WorldApart s' →
      ∀ world, { s with world }.Final m ∧ ({ s with world } : Service B).WorldApart s' := by
    rintro s _ ⟨hs, ⟨w⟩⟩ world
    exact ⟨hs.step (.change world), .mk w⟩
  have hhistory := hself.history_filter encoder bodyLimit (Final.keepsClients hB m) hhealth hchange
  obtain ⟨hstep, hfirst⟩ := hhistory os
  obtain ⟨-, hsecond⟩ := hhistory os'
  rw [← hos, hfirst] at hsecond
  exact ⟨hsecond, hstep.service.1⟩

end Service

namespace Settings

variable {s : Settings} {search : DeviceSearch} {files : Files → Prop}

theorem Loaded.device_eq {m : LoadedModel (s.backend search)} (h : s.Loaded search files m) :
    m.device = s.settled search := by
  cases h
  rfl

theorem looksToLoad (s : Settings) (search : DeviceSearch) : (s.backend search).LooksToLoad where
  encode _ _ _ _ _ := rfl
  generate _ _ _ _ _ := rfl

/-- What a service on its course reports on itself. -/
theorem health_eq_report {around : Surroundings} {orders : Nat → Option Session.Order}
    {σ : Service (s.backend search)} (h : σ.OnCourse around orders) (withBody : Bool) :
    Http.health σ withBody =
      Http.report σ.isReady s.modelId (if σ.isReady then s.settled search else .cpu) withBody := by
  have hid : σ.settings.modelId = s.modelId := congrArg ServiceSettings.modelId h.settings_eq
  rw [Http.health, hid, Service.isReady, Service.device]
  cases hm : σ.model with
  | none => rfl
  | some m =>
    have hdevice : m.device = s.settled search := (h.loaded m hm).device_eq
    rw [Option.map_some, Option.getD_some, hdevice]
    rfl

/-- What a service of these settings, which has come to `σ` by some events, says about itself is
**reliable**. -/
structure Reliable (s : Settings) (search : DeviceSearch) (files : Files)
    (es : List (ServiceEvent (s.backend search))) (σ : Service (s.backend search)) : Prop where
  /-- To ask changes nothing, whatever the backend is: no call of it is made. -/
  asking : ∀ (B : Backend) (S : Session B) (encoder : Encoder) (bodyLimit : Nat) (r : HttpRequest)
    (withBody : Bool), r.path = "/healthz" → r.method = (if withBody then "GET" else "HEAD") →
      S.exchange encoder bodyLimit r = (S, Http.health S.service withBody)
  /-- The service is ready when some task has completed an attempt to load the model. -/
  ready_iff : σ.isReady = true ↔
    ∃ x ∈ (s.start search files).moments es, x.service.attemptEnd? x.event = some .published
  /-- It reports so, and names the device of its settings then, and the processor before. -/
  report : ∀ withBody, Http.health σ withBody =
    Http.report σ.isReady s.modelId (if σ.isReady then s.settled search else .cpu) withBody
  /-- Every generation runs on the device that is reported. -/
  generating : ∀ t m call, σ.phase? t = some (.generating m call) →
    σ.model = some m ∧ m.device = σ.device ∧ m.synthetic.device = σ.device
  /-- Readiness lasts, with the same model. -/
  lasting : σ.isReady = true → ∀ fs, (σ.run fs).model = σ.model
  /-- Changes of the files make no difference any more, but to the files. -/
  aside : σ.isReady = true → ∀ fs fs' : List (ServiceEvent (s.backend search)),
    fs.filter (!·.isChange) = fs'.filter (!·.isChange) → (σ.run fs).WorldApart (σ.run fs')
  /-- In a session all later responses are the same. -/
  responses : σ.isReady = true → ∀ S : Session (s.backend search), S.service = σ →
    ∀ (encoder : Encoder) (bodyLimit : Nat) (os os' : List (Session.Occurrence (s.backend search))),
      os.filter (!·.isChange) = os'.filter (!·.isChange) →
        (S.history encoder bodyLimit os).2 = (S.history encoder bodyLimit os').2 ∧
          (S.history encoder bodyLimit os).1.service.model = σ.model

/-- **Readiness.** After any events at all, what a service says about itself is reliable. -/
theorem reliable_run (s : Settings) (search : DeviceSearch) (files : Files)
    (es : List (ServiceEvent (s.backend search))) :
    s.Reliable search files es ((s.start search files).run es) := by
  have hnew : (s.start search files).LoadSound := Service.loadSound_new _ _
  have hl := hnew.run es
  have hcourse : ((s.start search files).run es).OnCourse ⟨fun _ => True, True⟩
      ((s.start search files).notes (fun _ => none) es) :=
    (Service.onCourse_start s search trivial).run hnew es fun e _ => by cases e <;> trivial
  have hready := Service.isReady_run_iff hnew es
  rw [show (s.start search files).isReady = false from rfl] at hready
  have hB := s.looksToLoad search
  -- From here on the history of the service counts no more.
  generalize (s.start search files).run es = σ at *
  have hfinal (h : σ.isReady = true) : ∃ m, σ.Final m := by
    obtain ⟨m, hm⟩ := Option.isSome_iff_exists.mp h
    exact ⟨m, hl.final hm⟩
  refine ⟨fun B S encoder bodyLimit r withBody => Http.exchange_health S encoder bodyLimit,
    by simpa using hready, health_eq_report hcourse, fun t m call hp => ?_, fun h fs => ?_,
    fun h fs fs' hfs => ?_, fun h S hS encoder bodyLimit os os' hos => ?_⟩
  · obtain ⟨order, -, hcall⟩ := hcourse.phases t _ hp
    have hm : σ.model = some m := hcall.1
    have hcoherent := (hcourse.loaded m hm).coherent
    have hσ : σ.device = m.device := by rw [Service.device, hm]; rfl
    exact ⟨hm, hσ.symm, hcoherent.device_eq.trans hσ.symm⟩
  · obtain ⟨m, hm⟩ := hfinal h
    exact (hm.run fs).model.trans hm.model.symm
  · obtain ⟨m, hm⟩ := hfinal h
    exact hm.worldApart_run hB hfs
  · obtain ⟨m, hm⟩ := hfinal h
    obtain ⟨hresponses, hlast⟩ := (hS ▸ hm).history hB encoder bodyLimit hos
    exact ⟨hresponses, hlast.model.trans hm.model.symm⟩

/-- A model that is installed outside of the working directory is loaded, and stays loaded when its
directory is taken away. -/
theorem reliable_run_installed :
    let s : Settings := { modelId := "/models/kugelaudio-0-open" }
    let installed : Files :=
      { entries := [(["models"], .directory), (["models", "kugelaudio-0-open"], .directory)] }
    let es : List (ServiceEvent (s.backend {})) := [.summon 0, .advance 0, .answer 0, .answer 0]
    let σ := (s.start {} installed).run es
    s.Reliable {} installed es σ ∧ σ.isReady = true ∧
      (σ.run [.change ({} : Files)]).model = σ.model := by
  intro s installed es σ
  have hreliable : s.Reliable {} installed es σ := reliable_run s {} installed es
  have hready : σ.isReady = true := by decide +kernel
  exact ⟨hreliable, hready, hreliable.lasting hready [.change ({} : Files)]⟩

end Settings

end SpeechService
