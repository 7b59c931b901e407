import SpeechService.Proofs.Service.Tasks
import SpeechService.Proofs.Slot.Standing

/-!
# Loading

The service as the loading of its model sees it. A task **seeks** the model from the moment its
errand is accepted until it is told of the model, of a failed attempt, or is dropped; the **loader**
is the one task that is in the middle of an attempt. Everything else that tasks do is the same to
the loading slot.

`Service.loadStep` lists what one event can be to the loading slot, and so takes the step function
apart once. What follows from it is that the slot always fits the seekers, that it is closed
exactly when there is a model, and that nobody has it then (`Service.LoadSound.step`).
-/

namespace SpeechService

variable {B : Backend}

/-! ### Seekers, loaders, attempts -/

namespace Phase

/-- What a task that **seeks** the model seeks it for. -/
def seeking? : Phase B → Option Errand
  | .accepted errand => some errand
  | .awaitingModel errand => some errand
  | .loadingEngine errand _ _ => some errand
  | .loadingProcessor errand _ _ _ => some errand
  | _ => none

/-- The task is in the middle of an attempt to load the model. -/
def loads : Phase B → Bool
  | .loadingEngine .. => true
  | .loadingProcessor .. => true
  | _ => false

/-- The failure that the call brings back for which a loader waits. -/
def loadFailure? : Phase B → Option EngineError
  | .loadingEngine _ _ ⟨_, .error x⟩ => some x
  | .loadingProcessor _ _ _ ⟨_, .error x⟩ => some x
  | _ => none

/-- The call for which a loader waits brings back what was missing to publish the model. -/
def completesLoad : Phase B → Bool
  | .loadingProcessor _ _ _ ⟨_, .ok _⟩ => true
  | _ => false

/-- The standing of a task to the loading slot. -/
def loadingStanding : Phase B → Standing
  | .awaitingModel _ => .waiting
  | .loadingEngine .. => .inside
  | .loadingProcessor .. => .inside
  | _ => .outside

/-- Only a loader waits for a call that may fail. -/
theorem loadingStanding_of_loadFailure {p : Phase B} {x : EngineError}
    (h : p.loadFailure? = some x) : p.loadingStanding = .inside := by
  cases p <;> first | rfl | simp [loadFailure?] at h

/-- To load is to be inside. -/
theorem loads_iff (p : Phase B) : p.loads = true ↔ p.loadingStanding = .inside := by
  cases p <;> simp [loads, loadingStanding]

end Phase

/-- How an attempt to load the model came to its **end**. -/
inductive AttemptEnd where
  | failed (cause : EngineError)
  | cancelled
  | published
deriving DecidableEq

namespace Service

variable {s : Service B} {t u : Nat}

/-- The phase of a task that seeks the model. -/
def seeker? (s : Service B) (t : Nat) : Option (Phase B) :=
  (s.phase? t).filter (·.seeking?.isSome)

/-- The loaders. -/
def loaders (s : Service B) : List Nat := (s.tasks.filter (·.2.loads)).map (·.1)

/-- The end of an attempt that an event brings about. -/
def attemptEnd? (s : Service B) : ServiceEvent B → Option AttemptEnd
  | .answer t => (s.phase? t).bind fun p =>
    if p.completesLoad then some .published else p.loadFailure?.map .failed
  | .cancel t => (s.phase? t).bind fun p => if p.loads then some .cancelled else none
  | _ => none

/-- The standing of a task to the loading slot; who is unknown is outside. -/
def loadingStanding (s : Service B) (t : Nat) : Standing :=
  ((s.phase? t).map Phase.loadingStanding).getD .outside

theorem loadingStanding_eq {p : Phase B} (h : s.phase? t = some p) :
    s.loadingStanding t = p.loadingStanding := by
  simp [loadingStanding, h]

/-- A task that enters a phase takes the standing of the phase, and the others keep theirs. -/
theorem loadingStanding_enter (s : Service B) (t : Nat) (p : Phase B) :
    (s.enter t p).loadingStanding = Function.update s.loadingStanding t p.loadingStanding := by
  funext u
  by_cases h : u = t
  · subst h
    simp [loadingStanding]
  · rw [Function.update_of_ne h, loadingStanding, phase?_enter_of_ne s p h, loadingStanding]

theorem loadingStanding_forget (s : Service B) (t : Nat) :
    (s.forget t).loadingStanding = Function.update s.loadingStanding t .outside := by
  funext u
  by_cases h : u = t
  · subst h
    simp [loadingStanding]
  · rw [Function.update_of_ne h, loadingStanding, phase?_forget_of_ne s h, loadingStanding]

theorem seeker?_eq {p : Phase B} (h : s.phase? t = some p) :
    s.seeker? t = if p.seeking?.isSome then some p else none := by
  simp [seeker?, h, Option.filter]

/-- Only seekers stand to the loading slot. -/
theorem loadingStanding_eq_seeker? (s : Service B) (t : Nat) :
    s.loadingStanding t = ((s.seeker? t).map Phase.loadingStanding).getD .outside := by
  cases hp : s.phase? t with
  | none => simp [loadingStanding, seeker?, hp]
  | some p =>
    rw [loadingStanding_eq hp, seeker?_eq hp]
    cases p <;> rfl

/-- A task that does not seek may do what it likes. -/
theorem seeker?_enter {p : Phase B} (hp : p.seeking? = none) (ht : s.seeker? t = none) :
    (s.enter t p).seeker? = s.seeker? := by
  funext u
  by_cases h : u = t
  · subst h
    rw [ht, seeker?_eq (phase?_enter_self s u p), hp]
    rfl
  · rw [seeker?, phase?_enter_of_ne s p h, seeker?]

theorem seeker?_forget (ht : s.seeker? t = none) : (s.forget t).seeker? = s.seeker? := by
  funext u
  by_cases h : u = t
  · subst h
    rw [ht, seeker?, phase?_forget_self, Option.filter_none]
  · rw [seeker?, phase?_forget_of_ne s h, seeker?]

end Service

/-! ### The world without the loader -/

/-- The world changes **quietly** when the loader is not called. -/
inductive Backend.Quiet (B : Backend) (w : B.World) : B.World → Prop where
  | refl : B.Quiet w w
  | encode {w'} (processor : B.Processor) (text : String) (voice : Option String) :
    B.Quiet w w' → B.Quiet w (B.encode w' processor text voice).1
  | generate {w'} (engine : B.Engine) (inputs : Inputs) (options : GenerateOptions) :
    B.Quiet w w' → B.Quiet w (B.generate w' engine inputs options).1
  | conclude {w'} : B.Quiet w w' → B.Quiet w (B.conclude w')

namespace Service

variable {s : Service B} {t u : Nat}

/-! ### One step -/

/-- What the loading slot tells a seeker that goes on. -/
inductive Told (s : Service B) (t : Nat) (errand : Errand) : Slot Nat × Admission → Prop where
  | asks (hp : s.phase? t = some (.accepted errand)) (hm : s.model = none) :
    s.Told t errand (s.loading.ask t)
  | looks (hp : s.phase? t = some (.awaitingModel errand)) : s.Told t errand (s.loading.look t)

/-- What an event can be to the loading of the model. -/
inductive LoadStep (s : Service B) : ServiceEvent B → Service B → Prop where
  /-- The world changes by itself. -/
  | change (w : B.World) : s.LoadStep (.change w) { s with world := w }
  /-- Nothing that has to do with loading. -/
  | aside {e after} (seekers : after.seeker? = s.seeker?) (model : after.model = s.model)
    (loading : after.loading = s.loading) (world : B.Quiet s.world after.world)
    (goesOn : s.attemptEnd? e = none) : s.LoadStep e after
  /-- A task begins to seek the model. -/
  | joins {e t} (errand : Errand) (ht : s.seeker? t = none) (goesOn : s.attemptEnd? e = none) :
    s.LoadStep e (s.enter t (.accepted errand))
  /-- A seeker finds the model there. -/
  | finds {t errand m} (hp : s.phase? t = some (.accepted errand)) (hm : s.model = some m) :
    s.LoadStep (.advance t) (s.enter t (errand.withModel m))
  | hears {t errand told} (h : s.Told t errand told) :
    s.LoadStep (.advance t) (s.heedLoading t errand told)
  /-- An attempt goes on to the processor. -/
  | goesOn {t errand device delay engine}
    (hp : s.phase? t = some (.loadingEngine errand device ⟨delay, .ok engine⟩)) :
    s.LoadStep (.answer t) (s.takeEngine t errand device (.ok engine))
  | fails {t p errand x} (hp : s.phase? t = some p) (hs : p.seeking? = some errand)
    (hx : p.loadFailure? = some x) : s.LoadStep (.answer t) (s.failLoading t errand x)
  | publishes {t errand device engine delay processor}
    (hp : s.phase? t = some (.loadingProcessor errand device engine ⟨delay, .ok processor⟩)) :
    s.LoadStep (.answer t) (s.takeProcessor t errand device engine (.ok processor))
  /-- A seeker is dropped before it asked. -/
  | leaves {t errand} (hp : s.phase? t = some (.accepted errand)) :
    s.LoadStep (.cancel t) (s.forget t)
  /-- A seeker that stands in line is dropped. -/
  | givesUp {t errand} (hp : s.phase? t = some (.awaitingModel errand)) :
    s.LoadStep (.cancel t) ({ s with loading := s.loading.leave t }.forget t)
  /-- A loader is dropped. -/
  | breaksOff {t p} (hp : s.phase? t = some p) (hl : p.loads = true) :
    s.LoadStep (.cancel t) ({ s with loading := s.loading.release t }.forget t)

namespace LoadStep

/-- Nothing happens at all. -/
private theorem self {e : ServiceEvent B} (h : s.attemptEnd? e = none) : s.LoadStep e s :=
  .aside rfl rfl rfl .refl h

/-- Whatever a task is told at the gate is beside the loading. -/
private theorem heedGate {t : Nat} {p : Phase B} (hp : s.phase? t = some p)
    (hs : p.seeking? = none) (model : LoadedModel B) (text : SpokenText) (q : Parameters)
    (told : Slot Nat × Admission) :
    s.LoadStep (.advance t) (s.heedGate t model text q told) := by
  have ht : s.seeker? t = none := by rw [seeker?_eq hp, hs]; rfl
  obtain ⟨gate, admission⟩ := told
  cases admission with
  | waiting => exact .aside (seeker?_enter rfl ht) rfl rfl .refl rfl
  | refused => exact .aside (seeker?_enter rfl ht) rfl rfl .refl rfl
  | admitted =>
    rw [Service.heedGate, startGenerating]
    -- The processor and the engine are called, but not the loader.
    have hq := Backend.Quiet.encode model.processor text.text q.voice (.refl (w := s.world))
    split
    · next world inputs he =>
      rw [he] at hq
      split
      · exact .aside (seeker?_enter rfl ht) rfl rfl hq rfl
      · exact .aside (seeker?_enter rfl ht) rfl rfl (.generate _ _ _ hq) rfl

/-- A task goes on: it may begin to seek the model, ask for the slot, look at it, or find the model.
-/
private theorem advance {t : Nat} {p : Phase B} (hp : s.phase? t = some p) :
    s.LoadStep (.advance t) (s.advance t p) := by
  cases p with
  | arrived r =>
    have ht : s.seeker? t = none := seeker?_eq hp
    rw [Service.advance, accept]
    cases SpokenText.parse s.settings.textMaxChars r.text with
    | error e => exact .aside (seeker?_enter rfl ht) rfl rfl .refl rfl
    | ok text => exact .joins _ ht rfl
  | accepted errand =>
    rw [Service.advance, seekModel]
    cases hm : s.model with
    | none => exact .hears (.asks hp hm)
    | some m => exact .finds hp hm
  | awaitingModel errand => exact .hears (.looks hp)
  | equipped model text q => exact heedGate hp rfl model text q _
  | awaitingGate model text q => exact heedGate hp rfl model text q _
  | _ => exact self rfl

/-- A call is brought back: an attempt goes on, fails or publishes, or it was none. -/
private theorem answer {t : Nat} {p : Phase B} (hp : s.phase? t = some p) :
    s.LoadStep (.answer t) (s.answer t p) := by
  cases p with
  | loadingEngine errand device call =>
    obtain ⟨delay, _ | engine⟩ := call
    · exact .fails hp rfl rfl
    · exact .goesOn hp
  | loadingProcessor errand device engine call =>
    obtain ⟨delay, _ | processor⟩ := call
    · exact .fails hp rfl rfl
    · exact .publishes hp
  | generating model call =>
    have ht : s.seeker? t = none := seeker?_eq hp
    have hend : s.attemptEnd? (.answer t) = none := by rw [attemptEnd?, hp]; rfl
    exact .aside (seeker?_enter rfl ht) rfl rfl (.conclude .refl) hend
  | _ => exact self (by rw [attemptEnd?, hp]; rfl)

/-- A task is dropped: it may have been a seeker, in line or not, or the loader. -/
private theorem abandon {t : Nat} {p : Phase B} (hp : s.phase? t = some p) :
    s.LoadStep (.cancel t) (s.abandon t p) := by
  cases p with
  | accepted errand => exact .leaves hp
  | awaitingModel errand => exact .givesUp hp
  | loadingEngine errand device call => exact .breaksOff hp rfl
  | loadingProcessor errand device engine call => exact .breaksOff hp rfl
  | _ =>
    have ht : s.seeker? t = none := seeker?_eq hp
    exact .aside (seeker?_forget ht) rfl rfl .refl (by rw [attemptEnd?, hp]; rfl)

end LoadStep

/-- **One step.** Whatever happens is one of these to the loading of the model. -/
theorem loadStep (s : Service B) (e : ServiceEvent B) : s.LoadStep e (s.step e) := by
  cases e with
  | request t r =>
    cases hp : s.phase? t with
    | some p => simpa [step, hp] using LoadStep.self rfl
    | none =>
      have ht : s.seeker? t = none := by simp [seeker?, hp]
      simpa [step, hp] using LoadStep.aside (seeker?_enter rfl ht) rfl rfl .refl rfl
  | summon t =>
    cases hp : s.phase? t with
    | some p => simpa [step, hp] using LoadStep.self rfl
    | none =>
      have ht : s.seeker? t = none := by simp [seeker?, hp]
      simpa [step, hp] using LoadStep.joins .load ht rfl
  | advance t =>
    cases hp : s.phase? t with
    | some p => exact step_advance hp ▸ LoadStep.advance hp
    | none => simpa [step, withTask, hp] using LoadStep.self rfl
  | answer t =>
    cases hp : s.phase? t with
    | some p => exact step_answer hp ▸ LoadStep.answer hp
    | none => simpa [step, withTask, hp] using LoadStep.self (by rw [attemptEnd?, hp]; rfl)
  | cancel t =>
    cases hp : s.phase? t with
    | some p => exact step_cancel hp ▸ LoadStep.abandon hp
    | none => simpa [step, withTask, hp] using LoadStep.self (by rw [attemptEnd?, hp]; rfl)
  | close => exact .aside rfl rfl rfl .refl rfl
  | change w => exact .change w

/-- Who is refused finds the model. -/
theorem heedLoading_refused {m : LoadedModel B} (hm : s.model = some m) (t : Nat) (errand : Errand)
    (loading : Slot Nat) :
    s.heedLoading t errand (loading, .refused) =
      { s with loading }.enter t (errand.withModel m) := by
  simp only [heedLoading, hm]

/-! ### Soundness -/

/-- The loading of a service is **sound** when its slot fits the standing of the tasks, is closed
exactly when there is a model, and is free then. -/
structure LoadSound (s : Service B) : Prop where
  fits : s.loading.Fits s.loadingStanding
  closed_eq : s.loading.closed = s.model.isSome
  free_of_model : s.model.isSome = true → s.loading.tenure = .free

theorem loadSound_new (settings : ServiceSettings) (world : B.World) :
    ({ settings, world } : Service B).LoadSound :=
  ⟨Slot.fits_new, rfl, by simp⟩

namespace Told

variable {errand : Errand} {told : Slot Nat × Admission}

/-- Being told something neither opens nor closes the slot. -/
theorem closed_eq (h : s.Told t errand told) : told.1.closed = s.loading.closed := by
  cases h <;> simp

theorem closed_of_refused (h : s.Told t errand told) (hr : told.2 = .refused) :
    s.loading.closed = true := by
  cases h with
  | asks => exact Slot.closed_of_ask hr
  | looks => exact Slot.closed_of_look hr

/-- What the slot tells a seeker leaves it fitting the new standing of the seeker. -/
theorem fits (h : s.Told t errand told) (hs : s.LoadSound) :
    told.1.Fits (Function.update s.loadingStanding t told.2.standing) := by
  cases h with
  | asks hp => exact hs.fits.ask (loadingStanding_eq hp)
  | looks hp => exact hs.fits.look (loadingStanding_eq hp)

/-- Once there is a model, the slot only ever refuses. -/
theorem eq_of_model (h : s.Told t errand told) (hs : s.LoadSound) (hm : s.model.isSome = true) :
    told = (s.loading, .refused) := by
  have hcl : s.loading.closed = true := hs.closed_eq.trans hm
  cases h with
  | asks hp hn => simp [hn] at hm
  | looks hp =>
    rw [Slot.look, if_pos hcl,
      Slot.leave_of_free (hs.free_of_model hm) (hs.fits.line_of_closed hcl)]

end Told

namespace LoadSound

/-- Nobody loads once there is a model. -/
theorem not_inside (h : s.LoadSound) (hm : s.model.isSome = true) (t : Nat) :
    s.loadingStanding t ≠ .inside := fun hi => by
  have ho := (h.fits.inside_iff t).mp hi
  simp [h.free_of_model hm] at ho

/-- While somebody loads there is no model. -/
theorem model_eq_none (h : s.LoadSound) (ht : s.loadingStanding t = .inside) :
    s.model = none := by
  cases hm : s.model with
  | none => rfl
  | some m => exact absurd ht (h.not_inside (by simp [hm]) t)

/-- A task enters a phase while the slot changes along with it. -/
theorem enter (h : s.LoadSound) {p : Phase B} (loading : Slot Nat) {world : B.World}
    (hf : loading.Fits (Function.update s.loadingStanding t p.loadingStanding))
    (hc : loading.closed = s.loading.closed)
    (ht : s.model.isSome = true → loading = s.loading) :
    ({ s with loading, world }.enter t p).LoadSound where
  fits := by rwa [loadingStanding_enter]
  closed_eq := hc.trans h.closed_eq
  free_of_model hm := by
    rw [show loading = s.loading from ht hm]
    exact h.free_of_model hm

/-- A task whose standing stays the same enters a phase. -/
theorem enter_same (h : s.LoadSound) {p : Phase B} {world : B.World}
    (hp : s.loadingStanding t = p.loadingStanding) : ({ s with world }.enter t p).LoadSound := by
  refine h.enter s.loading ?_ rfl fun _ => rfl
  rw [← hp, Function.update_eq_self]
  exact h.fits

/-- A task is forgotten while the slot changes along with it. -/
theorem forget (h : s.LoadSound) (loading : Slot Nat)
    (hf : loading.Fits (Function.update s.loadingStanding t .outside))
    (hc : loading.closed = s.loading.closed)
    (ht : s.model.isSome = true → loading = s.loading) :
    ({ s with loading }.forget t).LoadSound where
  fits := by rwa [loadingStanding_forget]
  closed_eq := hc.trans h.closed_eq
  free_of_model hm := by
    rw [show loading = s.loading from ht hm]
    exact h.free_of_model hm

/-- A seeker hears what the loading slot tells it. -/
theorem heedLoading (h : s.LoadSound) {errand : Errand} {told : Slot Nat × Admission}
    (ht : s.Told t errand told) : (s.heedLoading t errand told).LoadSound := by
  have hf := ht.fits h
  have hc := ht.closed_eq
  have hm := ht.eq_of_model h
  have hr := ht.closed_of_refused
  obtain ⟨loading, admission⟩ := told
  cases admission with
  | admitted => exact h.enter loading hf hc fun hs => (Prod.mk.inj (hm hs)).1
  | waiting => exact h.enter loading hf hc fun hs => (Prod.mk.inj (hm hs)).1
  | refused =>
    -- A refusal comes from a closed slot, and a slot is closed where the model is there to be
    -- taken.
    have hs : s.model.isSome = true := h.closed_eq ▸ hr rfl
    obtain ⟨m, hm'⟩ := Option.isSome_iff_exists.mp hs
    rw [heedLoading_refused hm']
    refine h.enter loading ?_ hc fun hs => (Prod.mk.inj (hm hs)).1
    cases errand <;> exact hf

/-- With the model the slot is closed for good. -/
theorem takeProcessor (h : s.LoadSound) (ht : s.loadingStanding t = .inside) (errand : Errand)
    (device : Device) (engine : B.Engine) (processor : B.Processor) :
    (s.takeProcessor t errand device engine (.ok processor)).LoadSound where
  fits := by
    rw [Service.takeProcessor, loadingStanding_enter]
    have hf := h.fits.close.release ht
    cases errand <;> exact hf
  closed_eq := Slot.closed_release s.loading.close t
  free_of_model _ := by
    have ho : s.loading.close.tenure = .owned t := (h.fits.inside_iff t).mp ht
    show (s.loading.close.release t).tenure = .free
    rw [Slot.release, if_pos ho]
    rfl

/-- **One step.** Every event keeps the loading sound. -/
theorem step (h : s.LoadSound) (e : ServiceEvent B) : (s.step e).LoadSound := by
  have hl := s.loadStep e
  generalize s.step e = after at hl
  -- In every case the slot changes together with the standing of one seeker, or neither does.
  cases hl with
  | change w => exact ⟨h.fits, h.closed_eq, h.free_of_model⟩
  | aside seekers model loading =>
    have hst : after.loadingStanding = s.loadingStanding := by
      funext t
      rw [loadingStanding_eq_seeker?, seekers, ← loadingStanding_eq_seeker?]
    refine ⟨?_, ?_, ?_⟩
    · rw [loading, hst]
      exact h.fits
    · rw [loading, model]
      exact h.closed_eq
    · rw [loading, model]
      exact h.free_of_model
  | joins errand ht =>
    refine h.enter_same ?_
    rw [loadingStanding_eq_seeker?, ht]
    rfl
  | @finds t errand m hp hm =>
    refine h.enter_same ?_
    rw [loadingStanding_eq hp]
    cases errand <;> rfl
  | hears ht => exact h.heedLoading ht
  | @goesOn t errand device delay engine hp =>
    have hin : s.loadingStanding t = .inside := loadingStanding_eq hp
    exact h.enter_same hin
  | @fails t p errand x hp hs hx =>
    have hin := (loadingStanding_eq hp).trans (Phase.loadingStanding_of_loadFailure hx)
    exact h.enter _ (h.fits.release hin) (Slot.closed_release _ _) fun hm =>
      absurd hin (h.not_inside hm t)
  | publishes hp => exact h.takeProcessor (loadingStanding_eq hp) _ _ _ _
  | leaves hp =>
    refine h.forget s.loading ?_ rfl fun _ => rfl
    rw [show Standing.outside = s.loadingStanding _ from (loadingStanding_eq hp).symm,
      Function.update_eq_self]
    exact h.fits
  | givesUp hp =>
    refine h.forget _ (h.fits.leave (loadingStanding_eq hp)) (Slot.closed_leave _ _) fun hm => ?_
    exact Slot.leave_of_free (h.free_of_model hm)
      (h.fits.line_of_closed (h.closed_eq.trans hm))
  | @breaksOff t p hp hl =>
    have hin := (loadingStanding_eq hp).trans (p.loads_iff.mp hl)
    exact h.forget _ (h.fits.release hin) (Slot.closed_release _ _) fun hm =>
      absurd hin (h.not_inside hm t)

end LoadSound

/-- Every history keeps the loading sound. -/
theorem LoadSound.run (h : s.LoadSound) (es : List (ServiceEvent B)) : (s.run es).LoadSound := by
  induction es generalizing s with
  | nil => exact h
  | cons e es ih => exact ih (h.step e)

end Service

end SpeechService
