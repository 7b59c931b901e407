import SpeechService.Recording
import SpeechService.Proofs.Service.Loading
import SpeechService.Rehearsal.Backend

/-!
# Single flight

Any number of tasks may seek the model at once, may be dropped at any moment, and may find a loader
that fails at either of its two calls. Still there is never more than one attempt to load the model
at a time, and the model is published once, for good. `Service.SingleFlight` puts together what
holds of a watched service at every moment, and `Service.singleFlight_watchAll` is that it does,
after every sequence of events.

* Attempts are counted by what the loader saw: the engine was called for once in every attempt, and
  an attempt has failed, was cancelled, is in progress or has published the model.
* A seeker is told of the model, or of the failure of its own attempt, or goes on seeking, or was
  dropped (`Service.Outcome`).
* After an attempt that came to nothing the slot is with the first in line, or free when nobody is
  in line; whoever has it then begins afresh when it goes on.
-/

namespace SpeechService

variable {B : Backend}

/-- The attempt failed. -/
def AttemptEnd.isFailure : AttemptEnd → Bool
  | .failed _ => true
  | _ => false

namespace Service

variable {s : Service B} {t : Nat} {p : Phase B} {errand : Errand}

/-- How an event lets a seeker go on. -/
inductive Outcome (s : Service B) (t : Nat) (errand : Errand) (e : ServiceEvent B)
    (after : Service B) : Prop where
  /-- It still seeks the model for the same errand. -/
  | seeks (p : Phase B) (hp : after.phase? t = some p) (hs : p.seeking? = some errand)
  /-- It is told of the model that is published. -/
  | told (m : LoadedModel B) (hm : after.model = some m)
    (ht : after.phase? t = some (errand.withModel m))
  /-- Its own attempt failed, and it is told why. -/
  | failed (p : Phase B) (x : EngineError) (he : e = .answer t) (hp : s.phase? t = some p)
    (hx : p.loadFailure? = some x) (hm : after.model = none)
    (ht : after.phase? t = some (.ended (errand.failed x)))
  /-- It was dropped. -/
  | dropped (he : e = .cancel t) (ht : after.phase? t = none)

/-! ### What a seeker is told -/

/-- A seeker that is told of the model seeks it no longer. -/
theorem phase?_heedLoading {told : Slot Nat × Admission} (h : s.Told t errand told)
    (hs : s.LoadSound) :
    (∃ p, (s.heedLoading t errand told).phase? t = some p ∧ p.seeking? = some errand) ∨
      ∃ m, s.model = some m ∧ (s.heedLoading t errand told).model = some m ∧
        (s.heedLoading t errand told).phase? t = some (errand.withModel m) := by
  have hr := h.closed_of_refused
  obtain ⟨loading, admission⟩ := told
  cases admission with
  | admitted => exact .inl ⟨_, phase?_enter_self _ t _, rfl⟩
  | waiting => exact .inl ⟨_, phase?_enter_self _ t _, rfl⟩
  | refused =>
    obtain ⟨m, hm⟩ := Option.isSome_iff_exists.mp (hs.closed_eq ▸ hr rfl)
    refine .inr ⟨m, hm, ?_⟩
    rw [heedLoading_refused hm]
    exact ⟨hm, phase?_enter_self _ t _⟩

/-- **What a seeker is told.** An event lets a seeker go on in one of four ways. -/
theorem outcome (h : s.LoadSound) (e : ServiceEvent B) (hp : s.phase? t = some p)
    (hs : p.seeking? = some errand) : s.Outcome t errand e (s.step e) := by
  by_cases he : e.task? = some t
  case neg => exact .seeks p ((phase?_step_of_ne he).trans hp) hs
  have hl := s.loadStep e
  generalize s.step e = after at hl
  have hseeker : s.seeker? t = some p := by rw [seeker?_eq hp, hs]; rfl
  cases hl with
  | change w => simp [ServiceEvent.task?] at he
  | aside seekers =>
    have hafter : after.seeker? t = some p := by rw [seekers, hseeker]
    exact .seeks p (Option.filter_eq_some_iff.mp hafter).1 hs
  | @joins _ u errand' hu =>
    by_cases htu : t = u
    · simp [htu, hu] at hseeker
    · exact .seeks p ((phase?_enter_of_ne s _ htu).trans hp) hs
  | @finds u errand' m hu hm =>
    obtain rfl : u = t := by simpa [ServiceEvent.task?] using he
    obtain rfl : Phase.accepted errand' = p := Option.some.inj (hu.symm.trans hp)
    obtain rfl : errand' = errand := by simpa [Phase.seeking?] using hs
    exact .told m hm (phase?_enter_self s u _)
  | @hears u errand' told hu =>
    obtain rfl : u = t := by simpa [ServiceEvent.task?] using he
    obtain rfl : errand' = errand := by
      cases hu with
      | asks hu _ => cases hu.symm.trans hp; simpa [Phase.seeking?] using hs
      | looks hu => cases hu.symm.trans hp; simpa [Phase.seeking?] using hs
    obtain ⟨q, hq, hqs⟩ | ⟨m, -, hm, hq⟩ := phase?_heedLoading hu h
    · exact .seeks q hq hqs
    · exact .told m hm hq
  | @goesOn u errand' device delay engine hu =>
    obtain rfl : u = t := by simpa [ServiceEvent.task?] using he
    cases hu.symm.trans hp
    exact .seeks _ (phase?_enter_self _ u _) hs
  | @fails u q errand' x hu hus hx =>
    obtain rfl : u = t := by simpa [ServiceEvent.task?] using he
    obtain rfl : q = p := Option.some.inj (hu.symm.trans hp)
    obtain rfl : errand' = errand := Option.some.inj (hus.symm.trans hs)
    have hin := (loadingStanding_eq hu).trans (Phase.loadingStanding_of_loadFailure hx)
    exact .failed q x rfl hp hx (h.model_eq_none hin) (phase?_enter_self _ u _)
  | @publishes u errand' device engine delay processor hu =>
    obtain rfl : u = t := by simpa [ServiceEvent.task?] using he
    cases hu.symm.trans hp
    obtain rfl : errand' = errand := by simpa [Phase.seeking?] using hs
    exact .told _ rfl (phase?_enter_self _ u _)
  | @leaves u _ hu =>
    obtain rfl : u = t := by simpa [ServiceEvent.task?] using he
    exact .dropped rfl (phase?_forget_self s u)
  | @givesUp u _ hu =>
    obtain rfl : u = t := by simpa [ServiceEvent.task?] using he
    exact .dropped rfl (phase?_forget_self _ u)
  | @breaksOff u _ hu =>
    obtain rfl : u = t := by simpa [ServiceEvent.task?] using he
    exact .dropped rfl (phase?_forget_self _ u)

/-- **Everybody is served.** Once there is a model, a seeker that goes on is told of it. -/
theorem phase?_advance_of_model (h : s.LoadSound) {m : LoadedModel B} (hm : s.model = some m)
    (hp : s.phase? t = some p) (hs : p.seeking? = some errand) :
    (s.step (.advance t)).phase? t = some (errand.withModel m) := by
  have hin : p.loadingStanding ≠ .inside :=
    loadingStanding_eq hp ▸ h.not_inside (by simp [hm]) t
  rw [step_advance hp]
  cases p with
  | accepted errand' =>
    obtain rfl : errand' = errand := by simpa [Phase.seeking?] using hs
    rw [advance, seekModel]
    simp [hm]
  | awaitingModel errand' =>
    obtain rfl : errand' = errand := by simpa [Phase.seeking?] using hs
    rw [advance, (Told.looks hp).eq_of_model h (by simp [hm]), heedLoading_refused hm]
    exact phase?_enter_self _ t _
  | loadingEngine => exact absurd rfl hin
  | loadingProcessor => exact absurd rfl hin
  | _ => simp [Phase.seeking?] at hs

/-- **An attempt that fails.** Its loader is told why, nothing is published, and the slot passes
on. -/
theorem step_answer_of_loadFailure (hp : s.phase? t = some p) (hs : p.seeking? = some errand)
    {x : EngineError} (hx : p.loadFailure? = some x) :
    s.step (.answer t) = s.failLoading t errand x := by
  rw [step_answer hp]
  cases p with
  | loadingEngine errand' device call =>
    obtain ⟨delay, _ | _⟩ := call
    · cases hs
      cases hx
      rfl
    · simp [Phase.loadFailure?] at hx
  | loadingProcessor errand' device engine call =>
    obtain ⟨delay, _ | _⟩ := call
    · cases hs
      cases hx
      rfl
    · simp [Phase.loadFailure?] at hx
  | _ => simp [Phase.seeking?] at hs <;> simp [Phase.loadFailure?] at hx

/-! ### The model -/

/-- Whatever a seeker is told, the model stays as it is. -/
theorem model_heedLoading (s : Service B) (t : Nat) (errand : Errand)
    (told : Slot Nat × Admission) : (s.heedLoading t errand told).model = s.model := by
  obtain ⟨loading, admission⟩ := told
  cases admission with
  | admitted => rfl
  | waiting => rfl
  | refused =>
    rw [heedLoading]
    split <;> rfl

/-- **For good.** Nothing takes a published model away or puts another in its place. -/
theorem model_step (h : s.LoadSound) {m : LoadedModel B} (hm : s.model = some m)
    (e : ServiceEvent B) : (s.step e).model = some m := by
  have hl := s.loadStep e
  generalize s.step e = after at hl
  cases hl with
  | aside seekers model => rw [model, hm]
  | hears => rw [model_heedLoading, hm]
  | publishes hp =>
    have hin := loadingStanding_eq hp
    simp [h.model_eq_none hin] at hm
  | _ => exact hm

/-- **Publication.** The model is published when a loader gets its processor, with the engine that
the same loader got before. -/
theorem published_by {e : ServiceEvent B} {m : LoadedModel B}
    (hn : s.model = none) (hm : (s.step e).model = some m) :
    ∃ t errand delay, e = .answer t ∧ m.precision = m.device.precision ∧
      s.phase? t =
        some (.loadingProcessor errand m.device m.engine ⟨delay, .ok m.processor⟩) := by
  have hl := s.loadStep e
  generalize s.step e = after at hl hm
  cases hl with
  | aside seekers model => simp [model, hn] at hm
  | finds hp hm' => simp [hn] at hm'
  | hears => simp [model_heedLoading, hn] at hm
  | @publishes t errand device engine delay processor hp =>
    obtain rfl : (⟨engine, processor, device, device.precision⟩ : LoadedModel B) = m :=
      Option.some.inj hm
    exact ⟨t, errand, delay, rfl, rfl, hp⟩
  | _ => exact absurd (hn.symm.trans hm) (by simp)

/-! ### Attempts -/

theorem attemptEnd?_answer (hp : s.phase? t = some p) :
    s.attemptEnd? (.answer t) =
      if p.completesLoad then some .published else p.loadFailure?.map .failed := by
  rw [attemptEnd?, hp]
  rfl

theorem attemptEnd?_cancel (hp : s.phase? t = some p) :
    s.attemptEnd? (.cancel t) = if p.loads then some .cancelled else none := by
  rw [attemptEnd?, hp]
  rfl

theorem completesLoad_of_loadFailure {x : EngineError} (h : p.loadFailure? = some x) :
    p.completesLoad = false := by
  cases p with
  | loadingProcessor errand device engine call =>
    obtain ⟨delay, _ | _⟩ := call
    · rfl
    · simp [Phase.loadFailure?] at h
  | _ => rfl

/-- **An attempt that comes to nothing.** It leaves everything that is published as it was, and the
slot goes to the first in line. -/
theorem step_of_attemptEnd (h : s.LoadSound) {e : ServiceEvent B} {x : AttemptEnd}
    (hx : s.attemptEnd? e = some x) (hne : x ≠ .published) :
    s.model = none ∧ (s.step e).model = none ∧
      (s.step e).loading.tenure = s.loading.line.head?.elim .free .handed := by
  have hl := s.loadStep e
  generalize s.step e = after at hl
  cases hl with
  | change w => simp [attemptEnd?] at hx
  | aside _ _ _ _ hend => simp [hend] at hx
  | joins _ _ hend => simp [hend] at hx
  | finds => simp [attemptEnd?] at hx
  | hears => simp [attemptEnd?] at hx
  | goesOn hp => simp [attemptEnd?_answer hp, Phase.completesLoad, Phase.loadFailure?] at hx
  | publishes hp =>
    rw [attemptEnd?_answer hp] at hx
    exact absurd (Option.some.inj hx).symm hne
  | leaves hp => simp [attemptEnd?_cancel hp, Phase.loads] at hx
  | givesUp hp => simp [attemptEnd?_cancel hp, Phase.loads] at hx
  | @fails t p errand cause hp hs hf =>
    have hin := (loadingStanding_eq hp).trans (Phase.loadingStanding_of_loadFailure hf)
    have hm := h.model_eq_none hin
    exact ⟨hm, hm, Slot.tenure_release ((h.fits.inside_iff t).mp hin)⟩
  | @breaksOff t p hp hl =>
    have hin := (loadingStanding_eq hp).trans (p.loads_iff.mp hl)
    have hm := h.model_eq_none hin
    exact ⟨hm, hm, Slot.tenure_release ((h.fits.inside_iff t).mp hin)⟩

/-- The loaders are those who are inside. -/
theorem mem_loaders (hn : (s.tasks.map (·.1)).Nodup) :
    t ∈ s.loaders ↔ s.loadingStanding t = .inside := by
  rw [loaders, Roster.mem_names_filter hn Phase.loads, ← phase?]
  constructor
  · rintro ⟨p, hp, hl⟩
    exact (loadingStanding_eq hp).trans (p.loads_iff.mp hl)
  · intro hin
    cases hp : s.phase? t with
    | none => simp [loadingStanding, hp] at hin
    | some p => exact ⟨p, rfl, p.loads_iff.mpr ((loadingStanding_eq hp).symm.trans hin)⟩

theorem loaders_eq (h : s.LoadSound) (hn : (s.tasks.map (·.1)).Nodup) :
    s.loaders = s.loading.owner?.toList :=
  h.fits.insiders_eq (Roster.nodup_names_filter hn Phase.loads) fun _ => mem_loaders hn

/-! ### What the loader sees -/

section Recorded

variable {s : Service B.recorded} {t : Nat} {p : Phase B.recorded} {errand : Errand}

/-- What is quiet is not recorded. -/
theorem record_of_quiet {w w' : B.recorded.World} (h : B.recorded.Quiet w w') : w'.2 = w.2 := by
  induction h with
  | refl => rfl
  | encode processor text voice _ ih => exact ih
  | generate engine inputs options _ ih => exact ih
  | conclude _ ih => exact ih

/-- How many engines were to be loaded but for those of attempts in progress. -/
private theorem engineLoads_heedLoading {told : Slot Nat × Admission} (h : s.Told t errand told)
    (hs : s.LoadSound) :
    (s.heedLoading t errand told).engineLoads + s.loading.owner?.toList.length =
      s.engineLoads + (s.heedLoading t errand told).loading.owner?.toList.length := by
  have hr := h.closed_of_refused
  have hadm : told.2 = .admitted → s.loading.owner? = none ∧ told.1.owner? = some t := by
    intro ha
    cases h with
    | asks =>
      obtain ⟨ht, htold⟩ := Slot.ask_admitted ha
      rw [htold]
      simp [Slot.owner?, ht]
    | looks =>
      obtain ⟨ht, htold⟩ := Slot.look_admitted ha
      rw [htold]
      simp [Slot.owner?, ht]
  have hkeep : told.2 ≠ .admitted → told.1.owner? = s.loading.owner? := by
    intro ha
    cases h with
    | asks => rw [Slot.owner?, Slot.tenure_ask ha, Slot.owner?]
    | looks => exact Slot.owner?_look ha
  obtain ⟨loading, admission⟩ := told
  cases admission with
  | admitted =>
    obtain ⟨h0, h1⟩ := hadm rfl
    have hrec : (s.heedLoading t errand (loading, .admitted)).engineLoads = s.engineLoads + 1 := by
      rw [engineLoads, record]
      show (s.world.2 ++ _).countP LoaderCall.isEngine = _
      rw [List.countP_append]
      rfl
    have hown : (s.heedLoading t errand (loading, .admitted)).loading.owner? = some t := h1
    rw [hrec, hown, h0]
    rfl
  | waiting =>
    have hown : (s.heedLoading t errand (loading, .waiting)).loading.owner? = _ :=
      hkeep (by simp)
    rw [hown]
    rfl
  | refused =>
    obtain ⟨m, hm⟩ := Option.isSome_iff_exists.mp (hs.closed_eq ▸ hr rfl)
    rw [heedLoading_refused hm]
    have hown : loading.owner? = s.loading.owner? := hkeep (by simp)
    show s.engineLoads + _ = s.engineLoads + loading.owner?.toList.length
    rw [hown]

/-- Events that are watched leave the record to the loader. -/
private theorem record_of_change {e : ServiceEvent B} {record : List LoaderCall}
    {w : B.recorded.World} (h : e.watched record = .change w) : w.2 = record := by
  cases e with
  | change world =>
    cases h
    rfl
  | _ => simp [ServiceEvent.watched] at h

/-- **Counting.** An engine is called for when a loader begins, and only then. -/
theorem engineLoads_watch (h : s.LoadSound) (e : ServiceEvent B) :
    (s.watch e).engineLoads + s.loading.owner?.toList.length =
      s.engineLoads + (s.watch e).loading.owner?.toList.length
        + (s.attemptEnd? (e.watched s.record)).toList.length := by
  rw [watch]
  have hw (w : B.recorded.World) (he : e.watched s.record = .change w) : w.2 = s.record :=
    record_of_change he
  generalize e.watched s.record = e' at hw
  have hl := s.loadStep e'
  generalize s.step e' = after at hl
  -- The two sides move only where a seeker hears that it is to load, and where an attempt ends.
  cases hl with
  | change w =>
    rw [show ({ s with world := w } : Service B.recorded).engineLoads = s.engineLoads by
      rw [engineLoads, record, hw w rfl, engineLoads]]
    rfl
  | aside _ _ loading world hend =>
    rw [show after.engineLoads = s.engineLoads by
      rw [engineLoads, record, record_of_quiet world, engineLoads, record], loading, hend]
    rfl
  | joins _ _ hend =>
    rw [hend]
    rfl
  | finds => rfl
  | hears ht => exact engineLoads_heedLoading ht h
  | goesOn hp =>
    rw [attemptEnd?_answer hp]
    rw [show (s.takeEngine _ _ _ _).engineLoads = s.engineLoads by
      rw [engineLoads, record]
      show (s.world.2 ++ _).countP LoaderCall.isEngine = _
      rw [List.countP_append]
      rfl]
    rfl
  | @fails t p errand cause hp hs hf =>
    have ho := (h.fits.inside_iff t).mp
      ((loadingStanding_eq hp).trans (Phase.loadingStanding_of_loadFailure hf))
    have hown : (s.failLoading t errand cause).loading.owner? = none := Slot.owner?_release ho
    rw [hown, attemptEnd?_answer hp, completesLoad_of_loadFailure hf, hf, Slot.owner?, ho]
    rfl
  | @publishes t errand device engine delay processor hp =>
    have ho := (h.fits.inside_iff t).mp (loadingStanding_eq hp)
    have hown : (s.takeProcessor t errand device engine (.ok processor)).loading.owner? = none :=
      Slot.owner?_release (s := s.loading.close) ho
    rw [hown, attemptEnd?_answer hp, Slot.owner?, ho]
    rfl
  | leaves hp =>
    rw [attemptEnd?_cancel hp]
    rfl
  | @givesUp t errand hp =>
    have hown : ({ s with loading := s.loading.leave t }.forget t).loading.owner? = _ :=
      Slot.owner?_leave s.loading t
    rw [hown, attemptEnd?_cancel hp]
    rfl
  | @breaksOff t p hp hl =>
    have ho := (h.fits.inside_iff t).mp ((loadingStanding_eq hp).trans (p.loads_iff.mp hl))
    have hown : ({ s with loading := s.loading.release t }.forget t).loading.owner? = none :=
      Slot.owner?_release ho
    rw [hown, attemptEnd?_cancel hp, hl, Slot.owner?, ho]
    rfl

/-- **No more calls.** Once there is a model the loader is left alone. -/
theorem record_watch (h : s.LoadSound) {m : LoadedModel B.recorded} (hm : s.model = some m)
    (e : ServiceEvent B) : (s.watch e).record = s.record := by
  rw [watch]
  have hw (w : B.recorded.World) (he : e.watched s.record = .change w) : w.2 = s.record :=
    record_of_change he
  generalize e.watched s.record = e' at hw
  have hl := s.loadStep e'
  generalize s.step e' = after at hl
  cases hl with
  | change w => exact hw w rfl
  | aside _ _ _ world => exact record_of_quiet world
  | hears ht =>
    rw [ht.eq_of_model h (by simp [hm]), heedLoading_refused hm]
    rfl
  | goesOn hp =>
    have hin := loadingStanding_eq hp
    simp [h.model_eq_none hin] at hm
  | _ => rfl

/-- A loader that is told to begin does so with a call for an engine. -/
def Begins (s : Service B.recorded) (t : Nat) (errand : Errand) : Prop :=
  let device := s.settings.device.settle B.accelerated
  let call := (B.loadEngine s.world.1 s.settings.modelId device device.precision).2
  (s.watch (.advance t)).phase? t = some (.loadingEngine errand device call) ∧
    (s.watch (.advance t)).record =
      s.record ++ [.engine s.settings.modelId device device.precision]

private theorem begins_of_step (loading : Slot Nat)
    (h : s.step (.advance t) = s.heedLoading t errand (loading, .admitted)) :
    s.Begins t errand := by
  have hw : s.watch (.advance t) = s.heedLoading t errand (loading, .admitted) := h
  rw [Begins, hw]
  exact ⟨phase?_enter_self _ t _, rfl⟩

/-- A seeker that finds the slot free begins. -/
theorem begins_of_free (h : s.LoadSound) (hm : s.model = none) (ht : s.loading.tenure = .free)
    (hp : s.phase? t = some (.accepted errand)) : s.Begins t errand := by
  have hcl : s.loading.closed = false := by rw [h.closed_eq, hm]; rfl
  have hask : s.loading.ask t = ({ s.loading with tenure := .owned t }, .admitted) := by
    simp [Slot.ask, hcl, ht]
  refine begins_of_step { s.loading with tenure := .owned t } ?_
  rw [step_advance hp, advance, seekModel, ← hask]
  simp only [hm]

/-- A seeker in line that the slot was handed to begins. -/
theorem begins_of_handed (h : s.LoadSound) (hm : s.model = none)
    (ht : s.loading.tenure = .handed t) (hp : s.phase? t = some (.awaitingModel errand)) :
    s.Begins t errand := by
  have hcl : s.loading.closed = false := by rw [h.closed_eq, hm]; rfl
  have hlook : s.loading.look t = ({ s.loading with tenure := .owned t }, .admitted) := by
    simp [Slot.look, hcl, ht]
  refine begins_of_step { s.loading with tenure := .owned t } ?_
  rw [step_advance hp, advance, hlook]

/-- Who waits at the loading slot stands in line to load. -/
theorem phase?_of_loadingStanding_waiting (ht : s.loadingStanding t = .waiting) :
    ∃ errand, s.phase? t = some (.awaitingModel errand) := by
  cases hp : s.phase? t with
  | none => simp [loadingStanding, hp] at ht
  | some p =>
    rw [loadingStanding_eq hp] at ht
    cases p with
    | awaitingModel errand => exact ⟨errand, rfl⟩
    | _ => simp [Phase.loadingStanding] at ht

/-- **Afresh.** Without a model and without a loader, the slot is with a seeker in line that will
begin, or free for any seeker to begin. -/
theorem begins_afresh (h : s.LoadSound) (hm : s.model = none)
    (ho : s.loading.owner? = none) :
    (∃ t errand, s.loading.tenure = .handed t ∧ s.phase? t = some (.awaitingModel errand) ∧
        s.Begins t errand) ∨
      (∀ t errand, s.phase? t ≠ some (.awaitingModel errand)) ∧
        ∀ t errand, s.phase? t = some (.accepted errand) → s.Begins t errand := by
  cases ht : s.loading.tenure with
  | owned t => simp [Slot.owner?, ht] at ho
  | handed t =>
    obtain ⟨errand, hp⟩ := phase?_of_loadingStanding_waiting (h.fits.handed t ht).1
    exact .inl ⟨t, errand, rfl, hp, begins_of_handed h hm ht hp⟩
  | free =>
    have hcl : s.loading.closed = false := by rw [h.closed_eq, hm]; rfl
    -- A free slot has no line, and while it is open nobody waits outside of the line.
    refine .inr ⟨fun t errand hp => ?_, fun t errand hp => begins_of_free h hm ht hp⟩
    obtain hh | hl := h.fits.listed hcl t (loadingStanding_eq hp)
    · simp [ht] at hh
    · simp [h.fits.line_of_free ht] at hl

end Recorded

/-- There comes to be a model when an attempt publishes it, and only then. -/
theorem isReady_step (h : s.LoadSound) (e : ServiceEvent B) :
    (if (s.step e).isReady then 1 else 0) =
      (if s.isReady then 1 else 0) + (s.attemptEnd? e).toList.count .published := by
  have hl := s.loadStep e
  generalize s.step e = after at hl
  cases hl with
  | aside _ model _ _ hend =>
    rw [isReady, model, hend]
    rfl
  | joins _ _ hend =>
    rw [hend]
    rfl
  | hears =>
    rw [isReady, model_heedLoading]
    rfl
  | goesOn hp =>
    rw [attemptEnd?_answer hp]
    rfl
  | fails hp hs hf =>
    rw [attemptEnd?_answer hp, completesLoad_of_loadFailure hf, hf]
    rfl
  | publishes hp =>
    have hin := loadingStanding_eq hp
    rw [attemptEnd?_answer hp, show s.isReady = false by rw [isReady, h.model_eq_none hin]; rfl]
    rfl
  | leaves hp =>
    rw [attemptEnd?_cancel hp]
    rfl
  | givesUp hp =>
    rw [attemptEnd?_cancel hp]
    rfl
  | breaksOff hp hl =>
    rw [attemptEnd?_cancel hp, hl]
    rfl
  | _ => rfl

/-! ### Every run -/

/-- The ends of the attempts that some events bring about. -/
def attemptEnds (s : Service B.recorded) : List (ServiceEvent B) → List AttemptEnd
  | [] => []
  | e :: es => (s.attemptEnd? (e.watched s.record)).toList ++ (s.watch e).attemptEnds es

/-- Loading is a **single flight** for a watched service whose attempts came to the given ends. -/
structure SingleFlight (s : Service B.recorded) (ends : List AttemptEnd) : Prop where
  /-- At most one attempt is in progress. -/
  one_loader : s.loaders.length ≤ 1
  /-- Every call for an engine belongs to an attempt that failed, was cancelled, is in progress or
  published the model. -/
  engineLoads_eq : s.engineLoads = ends.countP AttemptEnd.isFailure + ends.count .cancelled
    + s.loaders.length + if s.isReady then 1 else 0
  /-- The model is published at most once. -/
  published_once : ends.count .published = if s.isReady then 1 else 0
  /-- What is published is an engine together with the processor for which its loader waited. -/
  published_by : ∀ (e : ServiceEvent B) (m : LoadedModel B.recorded), s.model = none →
    (s.watch e).model = some m →
      ∃ t errand delay, e = .answer t ∧ m.precision = m.device.precision ∧
        s.phase? t = some (.loadingProcessor errand m.device m.engine ⟨delay, .ok m.processor⟩)
  /-- A published model stays, and the loader is not called again. -/
  for_good : ∀ (m : LoadedModel B.recorded) (es : List (ServiceEvent B)), s.model = some m →
    (s.watchAll es).model = some m ∧ (s.watchAll es).record = s.record
  /-- With a model, every seeker that goes on is told of it. -/
  served : ∀ (m : LoadedModel B.recorded) (t : Nat) (p : Phase B.recorded) (errand : Errand),
    s.model = some m → s.phase? t = some p → p.seeking? = some errand →
      (s.watch (.advance t)).phase? t = some (errand.withModel m)
  /-- A seeker hears of no failure but that of its own attempt. -/
  outcome : ∀ (e : ServiceEvent B) (t : Nat) (p : Phase B.recorded) (errand : Errand),
    s.phase? t = some p → p.seeking? = some errand →
      s.Outcome t errand (e.watched s.record) (s.watch e)
  /-- The loader of an attempt that fails is told why. -/
  told_why : ∀ (t : Nat) (p : Phase B.recorded) (errand : Errand) (x : EngineError),
    s.phase? t = some p → p.seeking? = some errand → p.loadFailure? = some x →
      (s.watch (.answer t)).phase? t = some (.ended (errand.failed x))
  /-- An attempt that comes to nothing changes nothing that is published, and lets the first in
  line have the slot. -/
  comes_to_nothing : ∀ (e : ServiceEvent B) (x : AttemptEnd),
    s.attemptEnd? (e.watched s.record) = some x → x ≠ .published →
      s.model = none ∧ (s.watch e).model = none ∧ (s.watch e).isReady = false ∧
        (s.watch e).device = .cpu ∧
        (s.watch e).loading.tenure = s.loading.line.head?.elim .free .handed
  /-- Without a model and a loader, a seeker in line begins afresh when it goes on, and without a
  line whoever asks. -/
  afresh : s.model = none → s.loaders = [] →
    (∃ t errand, s.loading.tenure = .handed t ∧ s.phase? t = some (.awaitingModel errand) ∧
        s.Begins t errand) ∨
      (∀ t errand, s.phase? t ≠ some (.awaitingModel errand)) ∧
        ∀ t errand, s.phase? t = some (.accepted errand) → s.Begins t errand

section Recorded

variable {s : Service B.recorded}

theorem LoadSound.watchAll (h : s.LoadSound) (es : List (ServiceEvent B)) :
    (s.watchAll es).LoadSound := by
  induction es generalizing s with
  | nil => exact h
  | cons e es ih => exact ih (h.step _)

theorem nodup_watchAll (h : (s.tasks.map (·.1)).Nodup) (es : List (ServiceEvent B)) :
    ((s.watchAll es).tasks.map (·.1)).Nodup := by
  induction es generalizing s with
  | nil => exact h
  | cons e es ih => exact ih (nodup_step h _)

theorem engineLoads_watchAll (h : s.LoadSound) (es : List (ServiceEvent B)) :
    (s.watchAll es).engineLoads + s.loading.owner?.toList.length =
      s.engineLoads + (s.watchAll es).loading.owner?.toList.length
        + (s.attemptEnds es).length := by
  induction es generalizing s with
  | nil => rfl
  | cons e es ih =>
    have hstep := engineLoads_watch h e
    have hrest : ((s.watch e).watchAll es).engineLoads + _ = _ := ih (h.step _)
    rw [watchAll, List.foldl_cons, ← watchAll, attemptEnds, List.length_append]
    omega

theorem isReady_watchAll (h : s.LoadSound) (es : List (ServiceEvent B)) :
    (if (s.watchAll es).isReady then 1 else 0) =
      (if s.isReady then 1 else 0) + (s.attemptEnds es).count .published := by
  induction es generalizing s with
  | nil => rfl
  | cons e es ih =>
    have hstep := isReady_step h (e.watched s.record)
    have hrest : (if ((s.watch e).watchAll es).isReady then 1 else 0) = _ := ih (h.step _)
    rw [watchAll, List.foldl_cons, ← watchAll, attemptEnds, List.count_append, hrest]
    rw [← watch] at hstep
    omega

theorem for_good (h : s.LoadSound) {m : LoadedModel B.recorded} (hm : s.model = some m)
    (es : List (ServiceEvent B)) :
    (s.watchAll es).model = some m ∧ (s.watchAll es).record = s.record := by
  induction es generalizing s with
  | nil => exact ⟨hm, rfl⟩
  | cons e es ih =>
    obtain ⟨hmodel, hrecord⟩ := ih (s := s.watch e) (h.step _) (model_step h hm _)
    exact ⟨hmodel, hrecord.trans (record_watch h hm e)⟩

end Recorded

/-- Every end of an attempt is of one of three kinds. -/
theorem length_attemptEnds (ends : List AttemptEnd) :
    ends.length = ends.countP AttemptEnd.isFailure + ends.count .cancelled
      + ends.count .published := by
  induction ends with
  | nil => rfl
  | cons x ends ih =>
    rw [List.length_cons, List.countP_cons, List.count_cons, List.count_cons, ih]
    cases x <;> simp [AttemptEnd.isFailure] <;> omega

/-- **Single flight.** After any events at all, loading is a single flight. -/
theorem singleFlight_watchAll (settings : ServiceSettings) (world : B.World)
    (es : List (ServiceEvent B)) :
    SingleFlight ((watched settings world).watchAll es)
      ((watched settings world).attemptEnds es) := by
  have h0 : (watched settings world).LoadSound :=
    loadSound_new (B := B.recorded) settings (world, [])
  have h := h0.watchAll es
  have hn := nodup_watchAll (s := watched settings world) List.nodup_nil es
  have hloads := engineLoads_watchAll h0 es
  have hready := isReady_watchAll h0 es
  rw [show (watched settings world).loading.owner? = none from rfl,
    show (watched settings world).engineLoads = 0 from rfl, ← loaders_eq h hn,
    length_attemptEnds] at hloads
  rw [show (watched settings world).isReady = false from rfl] at hready
  -- From here on the service and its history are arbitrary but for these two sums.
  generalize (watched settings world).watchAll es = s at *
  generalize (watched settings world).attemptEnds es = ends at *
  refine ⟨?_, ?_, ?_, ?_, fun m es hm => for_good h hm es,
    fun m t p errand hm hp hs => phase?_advance_of_model h hm hp hs,
    fun e t p errand hp hs => outcome h _ hp hs, ?_, ?_, ?_⟩
  · rw [loaders_eq h hn]
    cases s.loading.owner? <;> simp
  · simp only [Option.toList_none, List.length_nil] at hloads
    simp only [Bool.false_eq_true, if_false] at hready
    omega
  · simp only [Bool.false_eq_true, if_false] at hready
    omega
  · intro e m hm hafter
    obtain ⟨t, errand, delay, he, hprec, hp⟩ := published_by hm hafter
    refine ⟨t, errand, delay, ?_, hprec, hp⟩
    cases e <;> simp_all [ServiceEvent.watched]
  · intro t p errand x hp hs hx
    have hstep : s.watch (.answer t) = s.failLoading t errand x :=
      step_answer_of_loadFailure hp hs hx
    rw [hstep]
    exact phase?_enter_self _ t _
  · intro e x hx hne
    obtain ⟨hm, hafter, hline⟩ := step_of_attemptEnd h hx hne
    refine ⟨hm, hafter, ?_, ?_, hline⟩
    · rw [isReady, watch, hafter]
      rfl
    · rw [device, watch, hafter]
      rfl
  · intro hm hl
    refine begins_afresh h hm ?_
    rw [loaders_eq h hn] at hl
    exact Option.toList_eq_nil_iff.mp hl

/-- Two tasks ask for the model at once: one of them loads it, and the other one, which waits in
line, is handed the same model. -/
theorem singleFlight_watchAll_two_seekers :
    let B := Rehearsal.Script.backend {}
    let start : Service B.recorded := watched {} ({} : Rehearsal.Stage)
    let es : List (ServiceEvent B) := [.summon 0, .summon 1, .advance 0, .advance 1, .answer 0,
      .answer 0, .advance 1]
    let m : LoadedModel B.recorded := ⟨(⟨.cpu, .f32⟩ : Rehearsal.Engine), (), .cpu, .f32⟩
    SingleFlight (start.watchAll es) (start.attemptEnds es) ∧ (start.watchAll es).engineLoads = 1 ∧
      (start.watchAll es).model = some m ∧
      (start.watchAll es).phase? 0 = some (.ended (.loaded (.ok m))) ∧
      (start.watchAll es).phase? 1 = some (.ended (.loaded (.ok m))) := by
  dsimp only
  exact ⟨singleFlight_watchAll {} _ _, by decide +kernel, rfl, rfl, rfl⟩

end Service

end SpeechService
