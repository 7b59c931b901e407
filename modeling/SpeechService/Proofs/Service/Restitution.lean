import SpeechService.Proofs.Service.Dealings
import SpeechService.Proofs.Service.Generating
import SpeechService.Proofs.Service.Transcribed
import SpeechService.Proofs.Slot.Without
import SpeechService.Rehearsal.Backend

/-!
# Giving everything back

However a request ends, with speech or with any error, it leaves the service as if it had not been
there, but for a model that it may have loaded. `Service.GivesBack` spells this out for a request
that comes in after any history and ends after any events, among which other tasks may come and
go, load, wait, generate and be dropped:

* Nothing that the request does to the gate is seen by others (`Service.GateSound.without_step`),
  and in the end the request is out of the gate.
* A published model stays, and a model that comes to be published comes whole out of one attempt.
* The processor is called when the gate lets the task in, and the engine when the processor has
  made inputs of the text: once, and with these inputs, moved to the device of the model.
-/

namespace SpeechService

variable {B : Backend}

namespace Service

/-! ### The gate -/

section Gate

variable {s : Service B} {t : Nat} {p : Phase B} {e : ServiceEvent B}

/-- Whatever is told about the model, the gate stays as it is. -/
theorem gate_heedLoading (s : Service B) (t : Nat) (errand : Errand)
    (told : Slot Nat × Admission) : (s.heedLoading t errand told).gate = s.gate := by
  obtain ⟨loading, admission⟩ := told
  cases admission with
  | refused =>
    rw [heedLoading]
    split <;> rfl
  | _ => rfl

namespace GateSound

/-- A task hears whether it is let in: what others see of the gate stays the same. -/
private theorem without_heedGate {told : Slot Nat × Admission} {model : LoadedModel B}
    {text : SpokenText} {q : Parameters}
    (hf : told.1.Fits (Function.update s.gateStanding t told.2.standing))
    (hw : told.1.without t = s.gate.without t) :
    (s.heedGate t model text q told).gate.without t = s.gate.without t := by
  obtain ⟨gate, admission⟩ := told
  cases admission with
  | waiting => exact hw
  | refused => exact hw
  | admitted =>
    rw [Service.heedGate, startGenerating]
    split
    split
    · exact (hf.without_release (Function.update_self ..)).trans hw
    · exact hw

private theorem without_advance (h : s.GateSound) (hp : s.phase? t = some p) :
    (s.advance t p).gate.without t = s.gate.without t := by
  have ht := gateStanding_eq hp
  cases p with
  | accepted errand =>
    rw [Service.advance, seekModel]
    split
    · rfl
    · rw [gate_heedLoading]
  | awaitingModel errand => rw [Service.advance, gate_heedLoading]
  | equipped model text q =>
    refine without_heedGate (Slot.Fits.ask h ht) ?_
    rw [Slot.Fits.without_ask h ht, Slot.without_of_not_knows (Slot.Fits.not_knows h ht)]
  | awaitingGate model text q =>
    exact without_heedGate (Slot.Fits.look h ht) (Slot.Fits.without_look h ht)
  | _ => rfl

private theorem without_answer (h : s.GateSound) (hp : s.phase? t = some p) :
    (s.answer t p).gate.without t = s.gate.without t := by
  have ht := gateStanding_eq hp
  cases p with
  | loadingEngine errand device call =>
    show (s.takeEngine t errand device call.result).gate.without t = _
    cases call.result <;> rfl
  | loadingProcessor errand device engine call =>
    show (s.takeProcessor t errand device engine call.result).gate.without t = _
    cases call.result <;> rfl
  | generating model call => exact Slot.Fits.without_release h ht
  | _ => rfl

private theorem without_abandon (h : s.GateSound) (hp : s.phase? t = some p) :
    (s.abandon t p).gate.without t = s.gate.without t := by
  have ht := gateStanding_eq hp
  cases p with
  | awaitingGate model text q => exact Slot.Fits.without_leave h ht
  | generating model call => exact Slot.Fits.without_release h ht
  | _ => rfl

/-- **The gate without a task.** What an event of the task does to the gate is not seen by
others. -/
theorem without_step (h : s.GateSound) (he : e.task? = some t) :
    (s.step e).gate.without t = s.gate.without t := by
  cases hp : s.phase? t with
  | none =>
    cases e with
    | close => simp [ServiceEvent.task?] at he
    | change w => simp [ServiceEvent.task?] at he
    | _ =>
      cases he
      simp [Service.step, withTask, hp, enter]
  | some p =>
    by_cases hc : e = .cancel t
    · rw [hc, step_cancel hp]
      exact h.without_abandon hp
    · obtain hstep | ⟨-, hstep⟩ | ⟨-, hstep⟩ := step_of_task hp he hc
      · rw [hstep]
      · rw [hstep]
        exact h.without_advance hp
      · rw [hstep]
        exact h.without_answer hp

/-- The gate is closed by nothing but its closing. -/
theorem closed_step (h : s.GateSound) (e : ServiceEvent B) :
    (s.step e).gate.closed = true ↔ s.gate.closed = true ∨ e = .close := by
  cases he : e.task? with
  | some t =>
    have hclosed : (s.step e).gate.closed = s.gate.closed := by
      rw [← Slot.closed_without _ t, h.without_step he, Slot.closed_without]
    have hne : e ≠ .close := by
      rintro rfl
      simp [ServiceEvent.task?] at he
    simp [hclosed, hne]
  | none =>
    cases e with
    | close => simp [Service.step, Slot.close]
    | change w => simp [Service.step]
    | _ => simp [ServiceEvent.task?] at he

theorem closed_run (h : s.GateSound) (es : List (ServiceEvent B)) :
    (s.run es).gate.closed = true ↔ s.gate.closed = true ∨ .close ∈ es := by
  induction es generalizing s with
  | nil => simp
  | cons e es ih =>
    rw [run_cons, ih (h.step e), h.closed_step e, List.mem_cons, or_assoc, eq_comm (a := e)]

/-- While nobody else changes the gate, the others see the same of it. -/
theorem without_run (h : s.GateSound) {es : List (ServiceEvent B)}
    (hothers : ∀ x ∈ s.moments es, x.event.task? ≠ some t → x.after.gate = x.service.gate) :
    (s.run es).gate.without t = s.gate.without t := by
  have hrun := run_of_moments (P := fun s' => s'.GateSound ∧ s'.gate.without t = s.gate.without t)
    es ⟨h, rfl⟩ ?_
  · exact hrun.2
  · rintro x hx ⟨hsound, hsame⟩
    refine ⟨hsound.step x.event, ?_⟩
    by_cases he : x.event.task? = some t
    · exact (hsound.without_step he).trans hsame
    · rw [hothers x hx he, hsame]

end GateSound

end Gate

end Service

/-! ### The model -/

/-- A model is **published** whole, by the attempt of a loader that has got its engine and now gets
its processor. -/
def Moment.Publishes (x : Moment B) (m : LoadedModel B) : Prop :=
  x.service.model = none ∧ x.after.model = some m ∧ m.precision = m.device.precision ∧
    ∃ u errand delay, x.event = .answer u ∧ x.service.phase? u =
      some (.loadingProcessor errand m.device m.engine ⟨delay, .ok m.processor⟩)

namespace Service

variable {s : Service B} {m : LoadedModel B}

theorem model_run (h : s.LoadSound) (hm : s.model = some m) (es : List (ServiceEvent B)) :
    (s.run es).model = some m := by
  have hrun := run_of_moments (P := fun s' => s'.LoadSound ∧ s'.model = some m) es ⟨h, hm⟩
    fun x _ hx => ⟨hx.1.step x.event, model_step hx.1 hx.2 x.event⟩
  exact hrun.2

/-- A model that was not there at first was published at some moment. -/
theorem exists_publishes (h : s.LoadSound) (hn : s.model = none) {es : List (ServiceEvent B)}
    (hm : (s.run es).model = some m) : ∃ x ∈ s.moments es, x.Publishes m := by
  induction es generalizing s with
  | nil => exact absurd (hn.symm.trans hm) (by simp)
  | cons e es ih =>
    cases hstep : (s.step e).model with
    | none =>
      obtain ⟨x, hx, hpublishes⟩ := ih (h.step e) hstep hm
      exact ⟨x, List.mem_cons_of_mem _ hx, hpublishes⟩
    -- What is published first stays, so that it is the model at the end.
    | some m' =>
      obtain rfl : m' = m :=
        Option.some.inj ((model_run (h.step e) hstep es).symm.trans hm)
      obtain ⟨u, errand, delay, he, hprecision, hphase⟩ := published_by hn hstep
      exact ⟨⟨s, e⟩, List.mem_cons_self, hn, hstep, hprecision, u, errand, delay, he, hphase⟩

end Service

/-! ### Inputs -/

/-- An input is **moved** to a device: a tensor keeps its numbers, its shape and its precision, and
any other value stays as it is. -/
inductive Input.MovedTo (device : Device) : Input → Input → Prop where
  | tensor {t t' : Tensor} (data : t'.data = t.data) (shape : t'.shape = t.shape)
    (precision : t'.precision = t.precision) (on : t'.device = device) :
    MovedTo device (.tensor t) (.tensor t')
  | value (v : Json) : MovedTo device (.value v) (.value v)

namespace Inputs

/-- Inputs are **moved** to a device: the names stay, and every input is moved. -/
def MovedTo (inputs : Inputs) (device : Device) (given : Inputs) : Prop :=
  List.Forall₂ (fun a b => b.1 = a.1 ∧ a.2.MovedTo device b.2) inputs given

/-- Moving to a device changes the device of tensors and nothing else. -/
theorem moved_toDevice (inputs : Inputs) (device : Device) :
    inputs.MovedTo device (inputs.toDevice device) := by
  induction inputs with
  | nil => exact .nil
  | cons entry inputs ih =>
    refine .cons ⟨rfl, ?_⟩ ih
    obtain ⟨name, t | v⟩ := entry
    · exact .tensor rfl rfl rfl rfl
    · exact .value v

end Inputs

/-! ### Every request -/

namespace Service

/-- A request that came in, and that has ended after some events, **gives back** everything. -/
structure GivesBack (s : Service B.transcribed) (t : Nat) (r : Request)
    (es : List (ServiceEvent B.transcribed)) : Prop where
  /-- No slot knows of it any more. -/
  gone : ¬(s.run (.request t r :: es)).gate.Knows t ∧ ¬(s.run (.request t r :: es)).loading.Knows t
  /-- Whatever it did to the gate was not seen by others. -/
  gate_kept : ∀ x ∈ s.moments (.request t r :: es), x.event.task? = some t →
    x.after.gate.without t = x.service.gate.without t
  /-- If nobody else changed the gate, the gate is as it was before. -/
  gate_back : (∀ x ∈ s.moments (.request t r :: es), x.event.task? ≠ some t →
    x.after.gate = x.service.gate) → (s.run (.request t r :: es)).gate = s.gate
  /-- The gate is closed if it was closed before or somebody has closed it. -/
  closed_back : (s.run (.request t r :: es)).gate.closed = true
    ↔ s.gate.closed = true ∨ .close ∈ es
  /-- A published model stays. -/
  model_kept : ∀ m, s.model = some m → (s.run (.request t r :: es)).model = some m
  /-- Where there was no model, there is none, or one that was published whole. -/
  model_whole : s.model = none → (s.run (.request t r :: es)).model = none ∨
    ∃ m, (s.run (.request t r :: es)).model = some m ∧
      ∃ x ∈ s.moments (.request t r :: es), x.Publishes m
  /-- The processor is called if the gate lets the task in, and only then. -/
  encodes_iff : (∃ processor text voice result,
      .encode processor text voice result ∈ callsOf t (s.moments (.request t r :: es))) ↔
    ∃ x ∈ s.moments (.request t r :: es), x.Admits t
  /-- The engine is called at most once. -/
  generates_once : (callsOf t (s.moments (.request t r :: es))).countP SpeechCall.isGenerate ≤ 1
  /-- The engine is called if the text can be spoken, the model is there, the gate lets the task in
  and the processor makes inputs of the text, and only then. -/
  generates_iff :
    (callsOf t (s.moments (.request t r :: es))).countP SpeechCall.isGenerate = 1 ↔
      (∃ text, SpokenText.parse s.settings.textMaxChars r.text = .ok text) ∧
        (∃ x ∈ s.moments (.request t r :: es), x.Equips t) ∧
        (∃ x ∈ s.moments (.request t r :: es), x.Admits t) ∧
        ∃ processor text voice inputs,
          .encode processor text voice (.ok inputs) ∈ callsOf t (s.moments (.request t r :: es))
  /-- The engine of the model is given what its processor has just made, moved to its device. -/
  inputs_moved : ∀ engine given options,
    .generate engine given options ∈ callsOf t (s.moments (.request t r :: es)) →
      ∃ m text voice inputs, (s.run (.request t r :: es)).model = some m ∧ engine = m.engine ∧
        callsOf t (s.moments (.request t r :: es)) =
          [.encode m.processor text voice (.ok inputs), .generate engine given options] ∧
        inputs.MovedTo m.device given
  /-- All this is seen in the transcript, and without a transcript the same happens. -/
  plain_run : (s.run (.request t r :: es)).plain
    = s.plain.run (.request t r :: es.map ServiceEvent.plain)

/-- **Restitution.** Every request that ends without having been dropped gives back everything,
whatever has happened before and whatever happens in between. -/
theorem gives_back (settings : ServiceSettings) (world : B.World)
    (history : List (ServiceEvent B.transcribed)) (t : Nat) (r : Request)
    (hnew : ((transcribing settings world).run history).phase? t = none)
    (es : List (ServiceEvent B.transcribed)) (hkept : .cancel t ∉ es) (x : Ending B.transcribed)
    (hend : (((transcribing settings world).run history).run (.request t r :: es)).phase? t
      = some (.ended x)) :
    GivesBack ((transcribing settings world).run history) t r es := by
  have hload : ((transcribing settings world).run history).LoadSound :=
    LoadSound.run (loadSound_new (B := B.transcribed) settings (world, [])) history
  have hgate : ((transcribing settings world).run history).GateSound :=
    GateSound.run (gateSound_new (B := B.transcribed) settings (world, [])) history
  -- All that matters of the history is that both slots fit the tasks.
  generalize (transcribing settings world).run history = s at *
  have hout : ¬(s.run (.request t r :: es)).gate.Knows t :=
    Slot.Fits.not_knows (hgate.run _) (gateStanding_eq hend)
  have hdealings := dealings_of_ended hload hnew hkept hend
  refine ⟨⟨hout, ?_⟩, ?_, ?_, ?_, ?_, ?_, encode_mem_callsOf_iff, hdealings.countP_le_one, ?_, ?_,
    plain_run s _⟩
  · exact (hload.run _).fits.not_knows (loadingStanding_eq hend)
  · intro y hy he
    have hsound := of_mem_moments (P := GateSound) (fun s e h => h.step e) hgate hy
    exact hsound.without_step he
  · intro hothers
    have hsame := hgate.without_run hothers
    -- Neither gate knows the task, so that both are what others see of them.
    have hold : ¬s.gate.Knows t := by
      refine Slot.Fits.not_knows hgate ?_
      rw [gateStanding, hnew]
      rfl
    rwa [Slot.without_of_not_knows hout, Slot.without_of_not_knows hold] at hsame
  · rw [hgate.closed_run]
    simp
  · exact fun m hm => model_run hload hm _
  · intro hnone
    cases hm : (s.run (.request t r :: es)).model with
    | none => exact .inl rfl
    | some m => exact .inr ⟨m, rfl, exists_publishes hload hnone hm⟩
  · rw [hdealings.countP_eq_one_iff]
    refine and_congr_right fun _ => and_congr_right fun _ => ⟨?_, fun h => h.2⟩
    -- The processor is called only behind the gate, so that its call stands for the admission.
    rintro ⟨processor, text, voice, inputs, hmem⟩
    have hadmits := encode_mem_callsOf_iff.mp ⟨processor, text, voice, .ok inputs, hmem⟩
    exact ⟨hadmits, processor, text, voice, inputs, hmem⟩
  · intro engine given options hmem
    obtain ⟨m, text, voice, inputs, hm, hengine, rfl, hcalls⟩ := hdealings.eq_of_generate hmem
    exact ⟨m, text, voice, inputs, hm, hengine, hcalls, inputs.moved_toDevice m.device⟩

/-- A request loads the model, and then its engine fails: the gate is free again. -/
theorem gives_back_after_failure :
    let stage : Rehearsal.Stage := { performances := [some (.failure (.inference "no memory"))] }
    let s : Service (Rehearsal.Script.backend {}).transcribed := transcribing {} stage
    let es : List (ServiceEvent (Rehearsal.Script.backend {}).transcribed) :=
      [.advance 0, .advance 0, .answer 0, .answer 0, .advance 0, .answer 0]
    (s.run (.request 0 { text := "hi" } :: es)).phase? 0 =
        some (.ended (.spoken (.error (.generation "Inference failed: no memory")))) ∧
      .cancel 0 ∉ es ∧ (s.run (.request 0 { text := "hi" } :: es)).gate = {} ∧
      (callsOf 0 (s.moments (.request 0 { text := "hi" } :: es))).countP SpeechCall.isGenerate = 1
      ∧ GivesBack s 0 { text := "hi" } es :=
  have hkept : .cancel 0 ∉ [.advance 0, .advance 0, .answer 0, .answer 0, .advance 0,
      (.answer 0 : ServiceEvent (Rehearsal.Script.backend {}).transcribed)] := by simp
  ⟨rfl, hkept, rfl, rfl, gives_back {} _ [] 0 { text := "hi" } rfl _ hkept _ rfl⟩

end Service

end SpeechService
