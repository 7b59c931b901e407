import SpeechService.Proofs.Service.Tasks
import SpeechService.Proofs.Slot.Standing

/-!
# Generating

The service as its gate sees it. A task stands outside of the gate until it has the model, waits
while it stands in line, and is inside while it generates. Every event keeps the gate and the
standing of the tasks together (`Service.GateSound.step`), so there is never more than one task that
generates (`Service.GateSound.generators_eq`).
-/

namespace SpeechService

variable {B : Backend}

/-- The standing of a task to the gate. -/
def Phase.gateStanding : Phase B → Standing
  | .awaitingGate .. => .waiting
  | .generating .. => .inside
  | _ => .outside

/-- The task generates. -/
def Phase.generates : Phase B → Bool
  | .generating .. => true
  | _ => false

/-- To generate is to be inside. -/
theorem Phase.generates_iff (p : Phase B) : p.generates = true ↔ p.gateStanding = .inside := by
  cases p <;> simp [generates, gateStanding]

namespace Service

variable {s : Service B} {t u : Nat} {p : Phase B}

/-- The tasks that generate. -/
def generators (s : Service B) : List Nat := (s.tasks.filter (·.2.generates)).map (·.1)

/-- The standing of a task to the gate; who is unknown is outside. -/
def gateStanding (s : Service B) (t : Nat) : Standing :=
  ((s.phase? t).map Phase.gateStanding).getD .outside

theorem gateStanding_eq (h : s.phase? t = some p) : s.gateStanding t = p.gateStanding := by
  simp [gateStanding, h]

theorem gateStanding_enter (s : Service B) (t : Nat) (p : Phase B) :
    (s.enter t p).gateStanding = Function.update s.gateStanding t p.gateStanding := by
  funext u
  by_cases h : u = t
  · subst h
    simp [gateStanding]
  · rw [Function.update_of_ne h, gateStanding, phase?_enter_of_ne s p h, gateStanding]

theorem gateStanding_forget (s : Service B) (t : Nat) :
    (s.forget t).gateStanding = Function.update s.gateStanding t .outside := by
  funext u
  by_cases h : u = t
  · subst h
    simp [gateStanding]
  · rw [Function.update_of_ne h, gateStanding, phase?_forget_of_ne s h, gateStanding]

/-- The gate of a service is **sound** when it fits the standing of the tasks. -/
def GateSound (s : Service B) : Prop := s.gate.Fits s.gateStanding

theorem gateSound_new (settings : ServiceSettings) (world : B.World) :
    ({ settings, world } : Service B).GateSound := Slot.fits_new

/-- A task enters a phase while the gate changes along with it. -/
theorem gateSound_enter {gate loading : Slot Nat} {world : B.World}
    {model : Option (LoadedModel B)}
    (hg : gate.Fits (Function.update s.gateStanding t p.gateStanding)) :
    ({ s with gate, loading, world, model }.enter t p).GateSound := by
  rw [GateSound, gateStanding_enter]
  exact hg

/-- A task is forgotten while the gate changes along with it. -/
theorem gateSound_forget {gate loading : Slot Nat}
    (hg : gate.Fits (Function.update s.gateStanding t .outside)) :
    ({ s with gate, loading }.forget t).GateSound := by
  rw [GateSound, gateStanding_forget]
  exact hg

namespace GateSound

/-- A task that stays as it stands enters a phase. -/
theorem enter_same (h : s.GateSound) {loading : Slot Nat} {world : B.World}
    {model : Option (LoadedModel B)} (hp : s.gateStanding t = p.gateStanding) :
    ({ s with loading, world, model }.enter t p).GateSound := by
  refine gateSound_enter ?_
  rw [← hp, Function.update_eq_self]
  exact h

/-- A task outside is forgotten. -/
theorem forget_same (h : s.GateSound) {loading : Slot Nat}
    (ht : s.gateStanding t = .outside) : ({ s with loading }.forget t).GateSound := by
  refine gateSound_forget ?_
  rw [← ht, Function.update_eq_self]
  exact h

/-- A task outside that is told of the model stays outside. -/
private theorem enterWithModel (h : s.GateSound) (ht : s.gateStanding t = .outside)
    (errand : Errand) (m : LoadedModel B) {loading : Slot Nat}
    {model : Option (LoadedModel B)} :
    ({ s with loading, model }.enter t (errand.withModel m)).GateSound := by
  refine h.enter_same ?_
  rw [ht]
  cases errand <;> rfl

private theorem heedLoading (h : s.GateSound) (ht : s.gateStanding t = .outside)
    (errand : Errand) (told : Slot Nat × Admission) :
    (s.heedLoading t errand told).GateSound := by
  obtain ⟨loading, admission⟩ := told
  cases admission with
  | admitted => exact h.enter_same ht
  | waiting => exact h.enter_same ht
  | refused =>
    rw [Service.heedLoading]
    split
    · exact h.enterWithModel ht errand _
    · exact h

private theorem heedGate (model : LoadedModel B) (text : SpokenText) (q : Parameters)
    {told : Slot Nat × Admission}
    (hg : told.1.Fits (Function.update s.gateStanding t told.2.standing)) :
    (s.heedGate t model text q told).GateSound := by
  obtain ⟨gate, admission⟩ := told
  cases admission with
  | waiting => exact gateSound_enter hg
  | refused => exact gateSound_enter hg
  | admitted =>
    rw [Service.heedGate, startGenerating]
    split
    split
    -- The inputs could not be made, and the slot is given back at once.
    · refine gateSound_enter ?_
      have hr := hg.release (Function.update_self ..)
      rwa [Function.update_idem] at hr
    · exact gateSound_enter hg

/-- A task that goes on keeps the gate sound: where it asks or looks, the slot takes its new
standing. -/
theorem advance (h : s.GateSound) (hp : s.phase? t = some p) : (s.advance t p).GateSound := by
  have ht := gateStanding_eq hp
  cases p with
  | arrived r =>
    rw [Service.advance, accept]
    split <;> exact h.enter_same ht
  | accepted errand =>
    rw [Service.advance, seekModel]
    split
    · exact h.enterWithModel ht errand _
    · exact h.heedLoading ht errand _
  | awaitingModel errand => exact h.heedLoading ht errand _
  | equipped model text q => exact heedGate model text q (h.ask ht)
  | awaitingGate model text q => exact heedGate model text q (h.look ht)
  | _ => exact h

/-- So does a task whose call is brought back: if it generated, it gives back the slot. -/
theorem answer (h : s.GateSound) (hp : s.phase? t = some p) : (s.answer t p).GateSound := by
  have ht := gateStanding_eq hp
  cases p with
  | loadingEngine errand device call =>
    show (s.takeEngine t errand device call.result).GateSound
    cases call.result with
    | error x => exact h.enter_same ht
    | ok engine => exact h.enter_same ht
  | loadingProcessor errand device engine call =>
    show (s.takeProcessor t errand device engine call.result).GateSound
    cases call.result with
    | error x => exact h.enter_same ht
    | ok processor => exact h.enterWithModel ht errand _
  | generating model call => exact gateSound_enter (h.release ht)
  | _ => exact h

/-- A task that is dropped gives up its place at the gate. -/
theorem abandon (h : s.GateSound) (hp : s.phase? t = some p) : (s.abandon t p).GateSound := by
  have ht := gateStanding_eq hp
  -- Only who waits at the gate or is inside has something to give up.
  cases p with
  | awaitingGate => exact gateSound_forget (h.leave ht)
  | generating => exact gateSound_forget (h.release ht)
  | _ => exact h.forget_same ht

/-- **One step.** Every event keeps the gate sound. -/
theorem step (h : s.GateSound) (e : ServiceEvent B) : (s.step e).GateSound := by
  cases e with
  | request t r =>
    rw [Service.step]
    split
    · exact h
    · next hp => exact h.enter_same (by simp_all [gateStanding, Phase.gateStanding])
  | summon t =>
    rw [Service.step]
    split
    · exact h
    · next hp => exact h.enter_same (by simp_all [gateStanding, Phase.gateStanding])
  | advance t =>
    cases hp : s.phase? t with
    | none => rwa [Service.step, withTask, hp]
    | some p => exact step_advance hp ▸ h.advance hp
  | answer t =>
    cases hp : s.phase? t with
    | none => rwa [Service.step, withTask, hp]
    | some p => exact step_answer hp ▸ h.answer hp
  | cancel t =>
    cases hp : s.phase? t with
    | none => rwa [Service.step, withTask, hp]
    | some p => exact step_cancel hp ▸ h.abandon hp
  | close => exact Slot.Fits.close h
  | change w => exact h

end GateSound

/-! ### Every run -/

theorem mem_generators (hn : (s.tasks.map (·.1)).Nodup) :
    t ∈ s.generators ↔ s.gateStanding t = .inside := by
  rw [generators, Roster.mem_names_filter hn Phase.generates, ← phase?]
  constructor
  · rintro ⟨p, hp, hl⟩
    exact (gateStanding_eq hp).trans (p.generates_iff.mp hl)
  · intro hin
    cases hp : s.phase? t with
    | none => simp [gateStanding, hp] at hin
    | some p => exact ⟨p, rfl, p.generates_iff.mpr ((gateStanding_eq hp).symm.trans hin)⟩

/-- **Mutual exclusion.** Only the owner of the gate generates. -/
theorem GateSound.generators_eq (h : s.GateSound) (hn : (s.tasks.map (·.1)).Nodup) :
    s.generators = s.gate.owner?.toList :=
  Slot.Fits.insiders_eq h (Roster.nodup_names_filter hn Phase.generates)
    fun _ => mem_generators hn

/-- Every history keeps the gate sound. -/
theorem GateSound.run (h : s.GateSound) (es : List (ServiceEvent B)) : (s.run es).GateSound := by
  induction es generalizing s with
  | nil => exact h
  | cons e es ih => exact ih (h.step e)

end Service

end SpeechService
