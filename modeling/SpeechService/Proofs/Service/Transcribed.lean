import SpeechService.Transcript
import SpeechService.Proofs.Service.Tasks

/-!
# What a transcript leaves alone

A service of a transcribed backend, with its transcript taken away, is a service of the backend
itself. It goes through the same phases with the same slots and the same model, whatever happens
(`Service.plain_run`): to be written down changes nothing.
-/

namespace SpeechService

variable {B : Backend}

/-! ### Taking the transcript away -/

/-- The same model of the backend itself. -/
def LoadedModel.plain (m : LoadedModel B.transcribed) : LoadedModel B :=
  ⟨m.engine, m.processor, m.device, m.precision⟩

/-- The same ending. -/
def Ending.plain : Ending B.transcribed → Ending B
  | .loaded result => .loaded (result.map LoadedModel.plain)
  | .spoken result => .spoken result
  | .panicked message => .panicked message

/-- The same phase. -/
def Phase.plain : Phase B.transcribed → Phase B
  | .arrived request => .arrived request
  | .accepted errand => .accepted errand
  | .awaitingModel errand => .awaitingModel errand
  | .loadingEngine errand device call => .loadingEngine errand device call
  | .loadingProcessor errand device engine call => .loadingProcessor errand device engine call
  | .equipped model text q => .equipped model.plain text q
  | .awaitingGate model text q => .awaitingGate model.plain text q
  | .generating model call => .generating model.plain call
  | .ended ending => .ended ending.plain

/-- The same event. -/
def ServiceEvent.plain : ServiceEvent B.transcribed → ServiceEvent B
  | .request task r => .request task r
  | .summon task => .summon task
  | .advance task => .advance task
  | .answer task => .answer task
  | .cancel task => .cancel task
  | .close => .close
  | .change world => .change world.1

namespace Service

variable {s : Service B.transcribed} {t : Nat} {p : Phase B.transcribed}

/-- The service without its transcript. -/
def plain (s : Service B.transcribed) : Service B where
  settings := s.settings
  world := s.world.1
  model := s.model.map LoadedModel.plain
  loading := s.loading
  gate := s.gate
  tasks := s.tasks.map fun (task, phase) => (task, phase.plain)

theorem phase?_plain (s : Service B.transcribed) (t : Nat) :
    s.plain.phase? t = (s.phase? t).map Phase.plain := by
  show (s.tasks.map fun (task, phase) => (task, phase.plain)).lookup t =
    (s.tasks.lookup t).map Phase.plain
  induction s.tasks with
  | nil => rfl
  | cons entry tasks ih =>
    obtain ⟨u, p⟩ := entry
    rw [List.map_cons, List.lookup_cons, List.lookup_cons]
    cases t == u
    · exact ih
    · rfl

theorem plain_forget (s : Service B.transcribed) (t : Nat) :
    (s.forget t).plain = s.plain.forget t := by
  have htasks : (s.tasks.filter (·.1 ≠ t)).map (fun (task, phase) => (task, phase.plain))
      = (s.tasks.map fun (task, phase) => (task, phase.plain)).filter (·.1 ≠ t) := by
    rw [List.filter_map]
    rfl
  exact congrArg (fun tasks => { s.plain with tasks }) htasks

theorem plain_enter (s : Service B.transcribed) (t : Nat) (p : Phase B.transcribed) :
    (s.enter t p).plain = s.plain.enter t p.plain := by
  have htasks := congrArg Service.tasks (plain_forget s t)
  exact congrArg (fun tasks => { s.plain with tasks := (t, p.plain) :: tasks }) htasks

theorem plain_withModel (errand : Errand) (m : LoadedModel B.transcribed) :
    (errand.withModel m).plain = errand.withModel m.plain := by
  cases errand <;> rfl

/-! ### One step -/

theorem plain_heedLoading (s : Service B.transcribed) (t : Nat) (errand : Errand)
    (told : Slot Nat × Admission) :
    (s.heedLoading t errand told).plain = s.plain.heedLoading t errand told := by
  obtain ⟨loading, admission⟩ := told
  cases admission with
  | admitted => exact plain_enter _ t _
  | waiting => exact plain_enter _ t _
  | refused =>
    cases hm : s.model with
    | none => simp [heedLoading, hm, plain]
    | some m =>
      have hplain : s.plain.model = some m.plain := by simp [plain, hm]
      simp only [heedLoading, hm, hplain]
      rw [plain_enter, plain_withModel]
      rfl

theorem plain_heedGate (s : Service B.transcribed) (t : Nat) (m : LoadedModel B.transcribed)
    (text : SpokenText) (q : Parameters) (told : Slot Nat × Admission) :
    (s.heedGate t m text q told).plain = s.plain.heedGate t m.plain text q told := by
  obtain ⟨gate, admission⟩ := told
  cases admission with
  | waiting => exact plain_enter _ t _
  | refused => exact plain_enter _ t _
  | admitted =>
    rcases hencode : B.encode s.world.1 m.processor text.text q.voice with ⟨w, x | inputs⟩
    · simp only [heedGate, startGenerating, Backend.transcribed, plain, LoadedModel.plain, hencode]
      exact plain_enter _ t _
    · simp only [heedGate, startGenerating, Backend.transcribed, plain, LoadedModel.plain, hencode]
      exact plain_enter _ t _

theorem plain_advance (s : Service B.transcribed) (t : Nat) (p : Phase B.transcribed) :
    (s.advance t p).plain = s.plain.advance t p.plain := by
  cases p with
  | arrived r =>
    show (s.accept t r).plain = s.plain.accept t r
    have hsettings : s.plain.settings = s.settings := rfl
    cases hparse : SpokenText.parse s.settings.textMaxChars r.text with
    | error x =>
      simp only [accept, hsettings, hparse]
      exact plain_enter s t _
    | ok text =>
      simp only [accept, hsettings, hparse]
      exact plain_enter s t _
  | accepted errand =>
    show (s.seekModel t errand).plain = s.plain.seekModel t errand
    cases hm : s.model with
    | none =>
      have hplain : s.plain.model = none := by simp [plain, hm]
      simp only [seekModel, hm, hplain]
      exact plain_heedLoading s t errand _
    | some m =>
      have hplain : s.plain.model = some m.plain := by simp [plain, hm]
      simp only [seekModel, hm, hplain]
      rw [plain_enter, plain_withModel]
  | awaitingModel errand => exact plain_heedLoading s t errand _
  | equipped m text q => exact plain_heedGate s t m text q _
  | awaitingGate m text q => exact plain_heedGate s t m text q _
  | _ => rfl

theorem plain_answer (s : Service B.transcribed) (t : Nat) (p : Phase B.transcribed) :
    (s.answer t p).plain = s.plain.answer t p.plain := by
  cases p with
  | loadingEngine errand device call =>
    obtain ⟨delay, x | engine⟩ := call
    · cases errand <;> exact plain_enter _ t _
    · exact plain_enter _ t _
  | loadingProcessor errand device engine call =>
    obtain ⟨delay, x | processor⟩ := call
    · cases errand <;> exact plain_enter _ t _
    · cases errand <;> exact plain_enter _ t _
  | generating m call =>
    obtain ⟨delay, outputs | x | message⟩ := call
    · cases outputs <;> exact plain_enter _ t _
    · exact plain_enter _ t _
    · exact plain_enter _ t _
  | _ => rfl

theorem plain_abandon (s : Service B.transcribed) (t : Nat) (p : Phase B.transcribed) :
    (s.abandon t p).plain = s.plain.abandon t p.plain := by
  cases p <;> exact plain_forget _ t

/-- **One step.** The same happens without a transcript. -/
theorem plain_step (s : Service B.transcribed) (e : ServiceEvent B.transcribed) :
    (s.step e).plain = s.plain.step e.plain := by
  have htask {t : Nat} {f : Phase B.transcribed → Service B.transcribed}
      {g : Phase B → Service B} (hfg : ∀ p, (f p).plain = g p.plain) :
      (s.withTask t f).plain = s.plain.withTask t g := by
    rw [withTask, withTask, phase?_plain]
    cases s.phase? t with
    | none => rfl
    | some p => exact hfg p
  have hstart (t : Nat) (p : Phase B.transcribed) :
      (if (s.phase? t).isSome then s else s.enter t p).plain =
        if (s.plain.phase? t).isSome then s.plain else s.plain.enter t p.plain := by
    rw [phase?_plain, Option.isSome_map]
    split
    · rfl
    · exact plain_enter s t p
  cases e with
  | request t r => exact hstart t (.arrived r)
  | summon t => exact hstart t (.accepted .load)
  | advance t => exact htask (plain_advance s t)
  | answer t => exact htask (plain_answer s t)
  | cancel t => exact htask (plain_abandon s t)
  | close => rfl
  | change w => rfl

/-- **A transcript leaves everything alone.** A service goes through the same states with a
transcript as without. -/
theorem plain_run (s : Service B.transcribed) (es : List (ServiceEvent B.transcribed)) :
    (s.run es).plain = s.plain.run (es.map ServiceEvent.plain) := by
  induction es generalizing s with
  | nil => rfl
  | cons e es ih => rw [run_cons, ih, plain_step, List.map_cons, run_cons]

end Service

end SpeechService
