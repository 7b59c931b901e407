import SpeechService.Proofs.Service.Respelled
import SpeechService.Proofs.Settings.Usable

/-!
# Requests spelled out

A request may leave parameters open, ask for some that cannot be used, and have blanks around its
text and its voice. **Spelled out** (`Defaults.spelledOut`) it has a trimmed text, and asks for
exactly the parameters that it gets. The service is indifferent to which of the two it is given,
whatever its state and whatever else goes on (`Settings.indifferent_to_spelling`), as both come to
the same (`Defaults.identifies_spelledOut`). So are all requests that state the same, blanks and
useless values apart (`Request.StatesAs`).
-/

namespace SpeechService

open Text (Trims)

/-! ### Spelling out -/

namespace Defaults

/-- A request **spelled out**: its text without the blanks around it, and all of its parameters. -/
def spelledOut (d : Defaults) (r : Request) : Request where
  text := Text.trim r.text
  voice := (d.resolve r).voice
  cfgScale := some (d.resolve r).cfgScale
  maxTokens := some (d.resolve r).maxTokens

variable {d : Defaults}

/-- The positive numbers of tokens, as far as they fit into 32 bits. -/
private theorem clamped_eq_some_iff {n : Option Int} {k : Nat} :
    ((n.filter (0 < ·)).map fun n => min n.toNat Text.max32) = some k ↔
      0 < k ∧ ∃ m ∈ n, min m 4294967295 = (k : Int) := by
  have hmax : Text.max32 = 4294967295 := by decide
  simp only [Option.map_eq_some_iff, Option.filter_eq_some_iff, decide_eq_true_eq, Option.mem_def,
    hmax]
  constructor
  · rintro ⟨m, ⟨hm, hpos⟩, rfl⟩
    exact ⟨by omega, m, hm, by omega⟩
  · rintro ⟨hk, m, hm, hmin⟩
    exact ⟨m, ⟨hm, by omega⟩, by omega⟩

/-- Usable parameters that are asked for are the ones that a request gets. -/
theorem resolve_of_usable {p : Parameters} (hp : p.IsUsable)
    (hnone : p.voice = none → d.voice = none) (text : String) :
    d.resolve ⟨text, p.voice, some p.cfgScale, some p.maxTokens⟩ = p := by
  have hread : p.voice.bind Text.trimmed? = p.voice := Field.text?_of_usable hp.voice
  have hvoice : (p.voice.bind Text.trimmed?).or d.voice = p.voice := by
    rw [hread]
    cases hv : p.voice with
    | none => exact hnone hv
    | some t => rfl
  have hscale : (some p.cfgScale).filter Binary.isPositive = some p.cfgScale :=
    Option.filter_eq_some_iff.mpr ⟨rfl, (Binary.isPositive_iff _).mpr hp.cfgScale⟩
  have htokens : ((some (p.maxTokens : Int)).filter (0 < ·)).map
      (fun n => min n.toNat Text.max32) = some p.maxTokens := by
    obtain ⟨hpos, hle⟩ := hp.maxTokens
    refine clamped_eq_some_iff.mpr ⟨hpos, p.maxTokens, rfl, ?_⟩
    omega
  simp only [resolve, hvoice, hscale, htokens, Option.getD_some]

/-- **Spelling out.** A request gets the same parameters when it asks for them. -/
theorem resolve_spelledOut (hd : d.asParameters.IsUsable) (r : Request) :
    d.resolve (d.spelledOut r) = d.resolve r := by
  have hp := (d.resolves r hd.voice hd.cfgScale hd.maxTokens).isUsable
  have hvoice : (d.resolve r).voice = (r.voice.bind Text.trimmed?).or d.voice := rfl
  refine resolve_of_usable hp (fun hnone => ?_) _
  rw [hvoice, Option.or_eq_none_iff] at hnone
  exact hnone.2

theorem identifies_spelledOut (hd : d.asParameters.IsUsable) (r : Request) :
    d.Identifies (d.spelledOut r) r where
  text := Text.trim_eq_self_iff.mpr (Text.trims_trim r.text).isTrimmed
  resolve_eq := resolve_spelledOut hd r

end Defaults

/-! ### Stating the same -/

/-- Two requests **state the same** when their texts are the same without the blanks around them,
and so are their voices, if they are not blank, their guidance scales, if they can be used, and
their numbers of tokens, if they are positive and as far as they fit into 32 bits. -/
structure Request.StatesAs (q r : Request) : Prop where
  text : ∀ t, Trims q.text t ↔ Trims r.text t
  voice : ∀ t ≠ "", (∃ v ∈ q.voice, Trims v t) ↔ ∃ v ∈ r.voice, Trims v t
  cfgScale : ∀ x : Double, x.IsUsable → (q.cfgScale = some x ↔ r.cfgScale = some x)
  maxTokens : ∀ k : Int, 0 < k →
    ((∃ n ∈ q.maxTokens, min n 4294967295 = k) ↔ ∃ n ∈ r.maxTokens, min n 4294967295 = k)

/-- Requests that state the same come to the same, whatever the defaults are. -/
theorem Request.StatesAs.identifies {q r : Request} (h : q.StatesAs r) (d : Defaults) :
    d.Identifies q r := by
  have hvoice : q.voice.bind Text.trimmed? = r.voice.bind Text.trimmed? := by
    ext t
    by_cases hne : t = ""
    · have hnever (v : Option String) : v.bind Text.trimmed? ≠ some "" := by
        intro hv
        obtain ⟨u, -, hu⟩ := Option.bind_eq_some_iff.mp hv
        exact (Text.trimmed?_eq_some_iff.mp hu).2 rfl
      simp [hne, hnever]
    · simpa [Option.bind_eq_some_iff, Text.trimmed?_eq_some_iff, hne] using h.voice t hne
  have hscale : q.cfgScale.filter Binary.isPositive = r.cfgScale.filter Binary.isPositive := by
    ext x
    simp only [Option.filter_eq_some_iff, Binary.isPositive_iff]
    exact and_congr_left (h.cfgScale x)
  have htokens : (q.maxTokens.filter (0 < ·)).map (fun n => min n.toNat Text.max32) =
      (r.maxTokens.filter (0 < ·)).map fun n => min n.toNat Text.max32 := by
    ext k
    rw [Defaults.clamped_eq_some_iff, Defaults.clamped_eq_some_iff]
    exact and_congr_right fun hk => h.maxTokens k (Int.natCast_pos.mpr hk)
  refine ⟨?_, ?_⟩
  · exact Text.trims_iff.mp ((h.text _).mpr (Text.trims_trim r.text))
  · simp only [Defaults.resolve, hvoice, hscale, htokens]

/-! ### Indifference -/

namespace Service

variable {B : Backend} {σ : Service B} {q r : Request}

/-- Once a task has gone on for the first time, nothing is left of its request but its text and its
parameters. -/
theorem run_advance_congr (h : σ.settings.defaults.Identifies q r) (t : Nat)
    (es : List (ServiceEvent B)) :
    σ.run (.request t q :: .advance t :: es) = σ.run (.request t r :: .advance t :: es) := by
  suffices hstep : (σ.step (.request t q)).step (.advance t) =
      (σ.step (.request t r)).step (.advance t) by
    rw [run_cons, run_cons, run_cons, run_cons, hstep]
  have hseen (r' : Request) :
      (σ.enter t (.arrived r')).step (.advance t) = σ.accept t r' := by
    rw [step_advance (phase?_enter_self ..), advance, accept, enter_enter, accept]
    rfl
  have hcome (r' : Request) : σ.step (.request t r') =
      if (σ.phase? t).isSome then σ else σ.enter t (.arrived r') := rfl
  rw [hcome, hcome]
  split
  · rfl
  · rw [hseen, hseen, accept_congr σ h]

end Service

namespace Settings

/-- A service of these settings is **indifferent** to how a request is spelled. -/
structure Indifferent (s : Settings) (r : Request) : Prop where
  /-- The request that is spelled out has the same parameters. -/
  resolve_eq : s.defaults.resolve (s.defaults.spelledOut r) = s.defaults.resolve r
  /-- In every state of a session it gets the same response and leaves the same state. -/
  response : ∀ (B : Backend) (S : Session B) (encoder : Encoder),
    S.service.settings.defaults = s.defaults →
      S.speak encoder (s.defaults.spelledOut r) = S.speak encoder r
  /-- Among others, nothing is different but the request itself until it is looked at. -/
  unseen : ∀ (B : Backend) (σ : Service B) (t : Nat) (es : List (ServiceEvent B)),
    σ.settings.defaults = s.defaults →
      (σ.run (.request t r :: es)).Twin t (σ.run (.request t (s.defaults.spelledOut r) :: es))
  /-- Once it is looked at, nothing is different at all. -/
  seen : ∀ (B : Backend) (σ : Service B) (t : Nat) (es : List (ServiceEvent B)),
    σ.settings.defaults = s.defaults →
      σ.run (.request t (s.defaults.spelledOut r) :: .advance t :: es) =
        σ.run (.request t r :: .advance t :: es)
  /-- All requests that state the same get the same response and leave the same state. -/
  spellings : ∀ q : Request, q.StatesAs r → s.defaults.resolve q = s.defaults.resolve r ∧
    ∀ (B : Backend) (S : Session B) (encoder : Encoder),
      S.service.settings.defaults = s.defaults → S.speak encoder q = S.speak encoder r

/-- **Spelling does not matter.** Whatever the texts are that settings come out of, a service of
these settings is indifferent to how any request is spelled. -/
theorem indifferent_to_spelling (raw : RawSettings) (r : Request) :
    (ofRaw raw).Indifferent r := by
  have hsame := Defaults.identifies_spelledOut (usable_defaults raw) r
  refine ⟨hsame.resolve_eq, fun B S encoder hd => ?_, fun B σ t es hd => ?_,
    fun B σ t es hd => ?_, fun q hq => ?_⟩
  · exact Session.speak_congr (hd ▸ hsame) encoder
  · exact Service.twin_run (hd ▸ hsame) t es
  · exact Service.run_advance_congr (hd ▸ hsame) t es
  · have hstates := hq.identifies (ofRaw raw).defaults
    exact ⟨hstates.resolve_eq, fun B S encoder hd => Session.speak_congr (hd ▸ hstates) encoder⟩

end Settings

end SpeechService
