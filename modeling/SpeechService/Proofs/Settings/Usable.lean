import SpeechService.Settings.Load
import SpeechService.Proofs.Binary.Nearest
import SpeechService.Proofs.Settings.Texts
import SpeechService.Proofs.Text.Trimming

/-!
# Usable settings and parameters

Settings come out of texts that anybody may have written, and parameters come out of requests that
anybody may make. Still all of them are **usable**: every number is inside its bounds, every name is
trimmed and not empty. For the settings of the server this is what `Settings.check?` looks for, and
for all others what their readers accept and what stands in for the rest
(`Settings.usable_of_load`). For parameters it follows from usable settings alone
(`Defaults.resolves`), since a request can only replace a usable value by a usable one.
-/

namespace SpeechService

open Text (IsTrimmed Trims)

/-! ### What is usable -/

/-- A number above zero that is finite. -/
structure Binary.IsUsable {f : Binary.Format} (x : Binary f) : Prop where
  finite : x.isFinite = true
  sign : x.negative = false
  pos : 0 < x.units

/-- A name that is **usable**, if there is a name. -/
def UsableName (name : Option String) : Prop := ∀ t ∈ name, IsTrimmed t ∧ t ≠ ""

/-- **Usable** settings. -/
structure Settings.IsUsable (s : Settings) : Prop where
  port : 1 ≤ s.server.port ∧ s.server.port ≤ 65535
  host : ∃ c ∈ s.server.host.toList, Text.isBlank c = false
  bodyLimit : 1 ≤ s.server.bodyLimit
  modelId : UsableName (some s.modelId)
  textMaxChars : 1 ≤ s.textMaxChars
  cfgScale : s.defaultCfgScale.IsUsable
  maxTokens : 1 ≤ s.defaultMaxTokens ∧ s.defaultMaxTokens ≤ 4294967295
  voice : UsableName s.defaultVoice
  sampleRate : 1 ≤ s.synthetic.sampleRate
  samplesPerToken : 1 ≤ s.synthetic.samplesPerToken

/-- **Usable** parameters. -/
structure Parameters.IsUsable (p : Parameters) : Prop where
  voice : UsableName p.voice
  cfgScale : p.cfgScale.IsUsable
  maxTokens : 1 ≤ p.maxTokens ∧ p.maxTokens ≤ 4294967295

/-- The parameters of a request that leaves everything open. -/
def Defaults.asParameters (d : Defaults) : Parameters := ⟨d.voice, d.cfgScale, d.maxTokens⟩

/-- The parameters `p` that a request **resolves** to: they are usable, and each of them is the one
of the request if that can be used, and the default if it cannot. -/
structure Defaults.Resolves (defaults : Defaults) (r : Request) (p : Parameters) : Prop where
  isUsable : p.IsUsable
  voice : ∀ v ∈ r.voice, ∀ t, Trims v t → t ≠ "" → p.voice = some t
  voice_default : (∀ v ∈ r.voice, Trims v "") → p.voice = defaults.voice
  cfgScale : ∀ x ∈ r.cfgScale, x.IsUsable → p.cfgScale = x
  cfgScale_default : (∀ x ∈ r.cfgScale, ¬x.IsUsable) → p.cfgScale = defaults.cfgScale
  maxTokens : ∀ n ∈ r.maxTokens, 0 < n → (p.maxTokens : Int) = min n (4294967295)
  maxTokens_default : (∀ n ∈ r.maxTokens, n ≤ 0) → p.maxTokens = defaults.maxTokens

/-! ### Readers -/

theorem Binary.isPositive_iff {f : Binary.Format} (x : Binary f) :
    x.isPositive = true ↔ x.IsUsable := by
  have hcode : 0 < x.units ↔ x.code ≠ 0 := f.units_pos_iff.trans Nat.pos_iff_ne_zero
  rw [Binary.isPositive, Bool.and_eq_true, Bool.and_eq_true, Bool.not_eq_true', bne_iff_ne, ← hcode]
  constructor
  · rintro ⟨⟨hfinite, hsign⟩, hpos⟩
    exact ⟨hfinite, hsign, hpos⟩
  · rintro ⟨hfinite, hsign, hpos⟩
    exact ⟨⟨hfinite, hsign⟩, hpos⟩

namespace Field

theorem pos_of_positiveInteger? {given : Option String} {n : Nat}
    (h : positiveInteger? given = some n) : 0 < n := by
  have hfilter := (Option.filter_eq_some_iff.mp h).2
  exact of_decide_eq_true hfilter

theorem isUsable_of_positiveNumber? {given : Option String} {x : Double}
    (h : positiveNumber? given = some x) : x.IsUsable :=
  x.isPositive_iff.mp (Option.filter_eq_some_iff.mp h).2

theorem usableName_text? (given : Option String) : UsableName (text? given) := by
  intro t ht
  obtain ⟨s, -, hs⟩ := Option.bind_eq_some_iff.mp ht
  obtain ⟨htrims, hne⟩ := Text.trimmed?_eq_some_iff.mp hs
  exact ⟨htrims.isTrimmed, hne⟩

/-- A usable name is read as it is. -/
theorem text?_of_usable {name : Option String} (h : UsableName name) : text? name = name := by
  rw [text?]
  cases name with
  | none => rfl
  | some t =>
    obtain ⟨htrimmed, hne⟩ := h t rfl
    have hself : Trims t t := Text.trims_iff.mpr (Text.trim_eq_self_iff.mpr htrimmed)
    rw [Option.bind_some, Text.trimmed?_eq_some_iff.mpr ⟨hself, hne⟩]

/-- A bound that holds of what is read and of what stands in for the rest. -/
theorem getD_of_forall {α : Type} {P : α → Prop} {v : Option α} {fallback : α}
    (hv : ∀ a, v = some a → P a) (hfallback : P fallback) : P (v.getD fallback) := by
  cases v with
  | none => exact hfallback
  | some a => exact hv a rfl

end Field

/-! ### Loading -/

namespace Store

theorem natural16_le {key : String} {v : Store} {n : Nat} (h : natural16 key v = .ok n) :
    n ≤ Text.max16 := by
  obtain ⟨m, -, hm⟩ := bind_eq_ok.mp h
  by_cases hle : m ≤ Text.max16
  · rw [if_pos hle] at hm
    exact Except.ok.inj hm ▸ hle
  · rw [if_neg hle] at hm
    exact nomatch hm

/-- The port of raw settings has 16 bits. -/
theorem port_le_of_ofStore {s : Store} {raw : RawSettings} (h : RawSettings.ofStore s = .ok raw) :
    raw.server.port ≤ Text.max16 := by
  -- Of all the values that are read one after another, only the port matters.
  simp only [RawSettings.ofStore, bind_eq_ok] at h
  obtain ⟨given, -, host, -, port, hport, limit, -, log, -, level, -, json, -, modelId, -, chars, -,
    scale, -, tokens, -, voice, -, device, -, eager, -, synthetic, -, rate, -, samples, -,
    latency, -, accelerator, -, ⟨⟩⟩ := h
  change port ≤ Text.max16
  rw [Section.read] at hport
  split at hport
  · exact natural16_le hport
  · obtain rfl := Except.ok.inj hport
    decide

end Store

namespace Settings

/-- Loaded settings come from raw ones, and passed the check. -/
theorem exists_raw_of_load {files : Files} {environment : List (String × String)}
    {path : Option String} {s : Settings} (h : load files environment path = .ok s) :
    ∃ store raw, RawSettings.ofStore store = .ok raw ∧ s = ofRaw raw ∧ s.check? = none := by
  rw [load] at h
  cases hlayers : Layer.all? files environment path with
  | none =>
    rw [hlayers] at h
    cases h
  | some layers =>
    rw [hlayers] at h
    cases hraw : RawSettings.ofStore (stacked layers) with
    | error cause =>
      have hfailed := (ofLayers_of_error hraw).symm.trans h
      cases hfailed
    | ok raw =>
      have hchecked := (ofLayers_of_ok hraw).symm.trans h
      rw [checked] at hchecked
      cases hcheck : (ofRaw raw).check? with
      | some cause =>
        rw [hcheck] at hchecked
        cases hchecked
      | none =>
        rw [hcheck] at hchecked
        obtain rfl := Except.ok.inj hchecked
        exact ⟨_, raw, hraw, rfl, hcheck⟩

theorem check?_eq_none_iff (s : Settings) : s.check? = none ↔
    s.server.port ≠ 0 ∧ Text.isAllBlank s.server.host = false ∧ s.server.bodyLimit ≠ 0 := by
  rw [check?]
  by_cases hport : s.server.port = 0
  · simp [hport]
  by_cases hhost : Text.isAllBlank s.server.host = true
  · simp [hport, hhost]
  by_cases hlimit : s.server.bodyLimit = 0 <;> simp [hport, hhost, hlimit]

/-- **Usable defaults.** Whatever the texts are that settings come out of, their defaults are usable
parameters. -/
theorem usable_defaults (raw : RawSettings) : (ofRaw raw).defaults.asParameters.IsUsable := by
  refine ⟨Field.usableName_text? _, ?_, ?_⟩
  · refine Field.getD_of_forall (fun x hx => Field.isUsable_of_positiveNumber? hx) ?_
    exact (Binary.isPositive_iff _).mp (by decide +kernel)
  · refine Field.getD_of_forall (P := fun n => 1 ≤ n ∧ n ≤ 4294967295) (fun n hn => ?_) (by decide)
    obtain ⟨m, hm, rfl⟩ := Option.map_eq_some_iff.mp hn
    exact ⟨Nat.le_min.mpr ⟨Field.pos_of_positiveInteger? hm, by decide⟩, Nat.min_le_right _ _⟩

theorem usableName_modelId (raw : RawSettings) : UsableName (some (ofRaw raw).modelId) := by
  have hfallback : IsTrimmed defaultModelId ∧ defaultModelId ≠ "" :=
    ⟨Text.trim_eq_self_iff.mp (by decide +kernel), by decide⟩
  rintro _ ⟨⟩
  exact Field.getD_of_forall (fun t ht => Field.usableName_text? _ t ht) hfallback

/-- **Usable settings.** Whatever the files and the environment say, settings that are loaded can be
used. -/
theorem usable_of_load {files : Files} {environment : List (String × String)}
    {path : Option String} {s : Settings} (h : load files environment path = .ok s) :
    s.IsUsable := by
  obtain ⟨store, raw, hstore, rfl, hcheck⟩ := exists_raw_of_load h
  obtain ⟨hport, hhost, hlimit⟩ := (check?_eq_none_iff _).mp hcheck
  obtain ⟨hvoice, hscale, htokens⟩ := usable_defaults raw
  refine ⟨⟨Nat.pos_of_ne_zero hport, Store.port_le_of_ofStore hstore⟩, ?_,
    Nat.pos_of_ne_zero hlimit, usableName_modelId raw, ?_, hscale, htokens, hvoice, ?_, ?_⟩
  -- A host of blanks only would not have passed the check.
  · by_contra hnone
    refine Bool.eq_false_iff.mp hhost (Text.isAllBlank_iff.mpr fun c hc => ?_)
    by_contra hblank
    exact hnone ⟨c, hc, Bool.eq_false_iff.mpr hblank⟩
  · exact Field.getD_of_forall (fun n hn => Field.pos_of_positiveInteger? hn) (by decide)
  all_goals
    refine Field.getD_of_forall (fun n hn => ?_) (by decide)
    obtain ⟨hread, -⟩ := Option.filter_eq_some_iff.mp hn
    exact Field.pos_of_positiveInteger? hread

end Settings

/-! ### Requests -/

namespace Defaults

variable (defaults : Defaults) (r : Request)

theorem resolve_voice {t : String} {v : String} (hv : r.voice = some v) (ht : Trims v t)
    (hne : t ≠ "") : (defaults.resolve r).voice = some t := by
  have hread : Text.trimmed? v = some t := Text.trimmed?_eq_some_iff.mpr ⟨ht, hne⟩
  simp [resolve, hv, hread]

theorem resolve_voice_default (h : ∀ v ∈ r.voice, Trims v "") :
    (defaults.resolve r).voice = defaults.voice := by
  have hread : r.voice.bind Text.trimmed? = none := by
    refine Option.bind_eq_none_iff.mpr fun v hv => Text.trimmed?_eq_none_iff.mpr ?_
    exact Text.trim_eq_empty_iff.mp (Text.trims_iff.mp (h v hv))
  rw [resolve, hread, Option.none_or]

/-- **Usable parameters.** Whatever a request asks for, its parameters can be used if the defaults
can. -/
theorem resolves (hvoice : UsableName defaults.voice) (hscale : defaults.cfgScale.IsUsable)
    (htokens : 1 ≤ defaults.maxTokens ∧ defaults.maxTokens ≤ 4294967295) :
    defaults.Resolves r (defaults.resolve r) := by
  -- For each parameter, what the request gives is used or is as if it were not given.
  have hscales (x : Double) (hx : r.cfgScale = some x) :
      (defaults.resolve r).cfgScale = if x.isPositive then x else defaults.cfgScale := by
    by_cases hpos : x.isPositive = true <;> simp [resolve, hx, Option.filter, hpos]
  have htokenss (n : Int) (hn : r.maxTokens = some n) : (defaults.resolve r).maxTokens
      = if 0 < n then min n.toNat Text.max32 else defaults.maxTokens := by
    by_cases hpos : 0 < n <;> simp [resolve, hn, Option.filter, hpos]
  refine ⟨⟨?_, ?_, ?_⟩, ?_, ?_, ?_, ?_, ?_, ?_⟩
  · by_cases hblank : ∀ v ∈ r.voice, Trims v ""
    · rw [resolve_voice_default defaults r hblank]
      exact hvoice
    · push Not at hblank
      obtain ⟨v, hv, hblank⟩ := hblank
      have hne : Text.trim v ≠ "" := fun h => hblank (h ▸ Text.trims_trim v)
      rw [resolve_voice defaults r hv (Text.trims_trim v) hne]
      rintro _ ⟨⟩
      exact ⟨(Text.trims_trim v).isTrimmed, hne⟩
  · cases hx : r.cfgScale with
    | none => simpa [resolve, hx] using hscale
    | some x =>
      rw [hscales x hx]
      split
      · next hpos => exact x.isPositive_iff.mp hpos
      · exact hscale
  · cases hn : r.maxTokens with
    | none => simpa [resolve, hn] using htokens
    | some n =>
      rw [htokenss n hn]
      split
      · next hpos =>
        have hmax : Text.max32 = 4294967295 := by decide
        omega
      · exact htokens
  · intro v hv t ht hne
    exact resolve_voice defaults r hv ht hne
  · exact resolve_voice_default defaults r
  · intro x hx husable
    rw [hscales x hx, if_pos (x.isPositive_iff.mpr husable)]
  · intro hnone
    cases hx : r.cfgScale with
    | none => simp [resolve, hx]
    | some x => rw [hscales x hx, if_neg fun hpos => hnone x hx (x.isPositive_iff.mp hpos)]
  · intro n hn hpos
    have hmax : (Text.max32 : Int) = 4294967295 := by decide
    rw [htokenss n hn, if_pos hpos]
    omega
  · intro hnone
    cases hn : r.maxTokens with
    | none => simp [resolve, hn]
    | some n => rw [htokenss n hn, if_neg (Int.not_lt.mpr (hnone n hn))]

end Defaults

/-- Usable settings make usable parameters of every request. -/
theorem Settings.IsUsable.resolves {s : Settings} (h : s.IsUsable) (r : Request) :
    s.defaults.Resolves r (s.defaults.resolve r) :=
  Defaults.resolves s.defaults r h.voice h.cfgScale h.maxTokens

end SpeechService
