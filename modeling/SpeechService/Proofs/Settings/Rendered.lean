import SpeechService.Proofs.Binary.ReadBack
import SpeechService.Proofs.Device.Names
import SpeechService.Proofs.Settings.Usable
import SpeechService.Settings.Rendering

/-!
# Settings are read back from their texts

Settings that come out of any texts are **renderable**: every field is a value that its own text is
read back to. Numbers are within the limits of their readers, names are trimmed, and words and
device names are in lower case. So the texts that `Settings.toRaw` writes give the same settings,
and none of these texts is ignored (`Settings.ofRaw_toRaw_ofRaw`).
-/

namespace SpeechService

/-! ### Fields -/

namespace Field

theorem natural?_ofNat {n : Nat} (h : n ≤ Text.max64) :
    natural? (some (Text.ofNat n)) = some n := by
  have hblank (c : Char) (hc : c ∈ Nat.toDigits 10 n) : Text.isBlank c = false :=
    Text.isBlank_of_isDigit (Text.isDigit_of_mem_toDigits hc)
  rw [natural?, Option.bind_some, Text.toList_ofNat, Text.trimList_of_forall hblank,
    Text.natural?_toDigits h]

theorem positiveInteger?_ofNat {n : Nat} (hpos : 0 < n) (h : n ≤ Text.max64) :
    positiveInteger? (some (Text.ofNat n)) = some n := by
  rw [positiveInteger?, natural?_ofNat h]
  exact Option.filter_some_pos (decide_eq_true hpos)

theorem positive32?_ofNat {n : Nat} (hpos : 0 < n) (h : n ≤ Text.max32) :
    positive32? (some (Text.ofNat n)) = some n := by
  rw [positive32?, positiveInteger?_ofNat hpos (Nat.le_trans h (by decide))]
  exact Option.filter_some_pos (decide_eq_true h)

theorem positiveNumber?_render {x : Double} (h : x.IsUsable) :
    positiveNumber? (some x.render) = some x := by
  have hnumber : x.isNaN = false :=
    decide_eq_false (Nat.not_lt.mpr (Nat.le_of_lt (of_decide_eq_true h.finite)))
  rw [positiveNumber?, Option.bind_some,
    Text.trimList_of_forall fun c hc => Binary.isBlank_of_mem_render hnumber hc,
    Binary.read?_render hnumber]
  exact Option.filter_some_pos (x.isPositive_iff.mpr h)

theorem flag?_flagText (b : Bool) : flag? (some (flagText b)) = some b := by
  cases b <;> decide +kernel

/-- An unset word stays unset. -/
theorem flag?_map_flagText (b : Option Bool) : flag? (b.map flagText) = b := by
  cases b with
  | none => rfl
  | some b => exact flag?_flagText b

theorem device?_name (d : DevicePreference) : device? (some d.name) = some d := by
  rw [device?, Option.bind_some, d.parse_name]
  rfl

theorem natural?_le {given : Option String} {n : Nat} (h : natural? given = some n) :
    n ≤ Text.max64 := by
  obtain ⟨s, -, hs⟩ := Option.bind_eq_some_iff.mp h
  exact Text.natural?_le hs

theorem positiveInteger?_le {given : Option String} {n : Nat}
    (h : positiveInteger? given = some n) : n ≤ Text.max64 :=
  natural?_le (Option.filter_eq_some_iff.mp h).1

theorem bounds_of_positive32? {given : Option String} {n : Nat}
    (h : positive32? given = some n) : 0 < n ∧ n ≤ Text.max32 := by
  obtain ⟨hread, hle⟩ := Option.filter_eq_some_iff.mp h
  exact ⟨pos_of_positiveInteger? hread, of_decide_eq_true hle⟩

end Field

/-! ### Settings -/

namespace Settings

/-- **Renderable** settings: every field is a value that its reader gives. -/
structure IsRenderable (s : Settings) : Prop where
  modelId : UsableName (some s.modelId)
  textMaxChars : 0 < s.textMaxChars ∧ s.textMaxChars ≤ Text.max64
  cfgScale : s.defaultCfgScale.IsUsable
  maxTokens : 0 < s.defaultMaxTokens ∧ s.defaultMaxTokens ≤ Text.max32
  voice : UsableName s.defaultVoice
  sampleRate : 0 < s.synthetic.sampleRate ∧ s.synthetic.sampleRate ≤ Text.max32
  samplesPerToken : 0 < s.synthetic.samplesPerToken ∧ s.synthetic.samplesPerToken ≤ Text.max32
  latencyMs : s.synthetic.latencyMs ≤ Text.max64

/-- Whatever the texts are that settings come out of, the settings are renderable. -/
theorem isRenderable_ofRaw (raw : RawSettings) : (ofRaw raw).IsRenderable where
  modelId := usableName_modelId raw
  textMaxChars := Field.getD_of_forall (P := fun n => 0 < n ∧ n ≤ Text.max64)
    (fun _ hn => ⟨Field.pos_of_positiveInteger? hn, Field.positiveInteger?_le hn⟩) (by decide)
  cfgScale := (usable_defaults raw).cfgScale
  maxTokens := (usable_defaults raw).maxTokens
  voice := (usable_defaults raw).voice
  sampleRate := Field.getD_of_forall (P := fun n => 0 < n ∧ n ≤ Text.max32)
    (fun _ hn => Field.bounds_of_positive32? hn) (by decide)
  samplesPerToken := Field.getD_of_forall (P := fun n => 0 < n ∧ n ≤ Text.max32)
    (fun _ hn => Field.bounds_of_positive32? hn) (by decide)
  latencyMs := Field.getD_of_forall (fun _ hn => Field.natural?_le hn) (by decide)

/-- A text that is used is not noted. -/
theorem note_some {α : Type} (key : String) (given : Option String) (used : α) :
    note key given (some used) = [] := by
  cases given <;> rfl

/-- A text that is given where there is a value for it is not noted. -/
theorem note_map {α : Type} (key : String) (text : α → String) (used : Option α) :
    note key (used.map text) used = [] := by
  cases used <;> rfl

theorem IsRenderable.ofRaw_toRaw {s : Settings} (h : s.IsRenderable) :
    ofRaw s.toRaw = { s with ignored := [] } := by
  have hmax : Text.max32 ≤ Text.max64 := by decide
  have hmodelId := Field.text?_of_usable h.modelId
  have hchars := Field.positiveInteger?_ofNat h.textMaxChars.1 h.textMaxChars.2
  have hscale := Field.positiveNumber?_render h.cfgScale
  have htokens := Field.positiveInteger?_ofNat h.maxTokens.1 (Nat.le_trans h.maxTokens.2 hmax)
  have hvoice := Field.text?_of_usable h.voice
  have hrate := Field.positive32?_ofNat h.sampleRate.1 h.sampleRate.2
  have hrate64 := Field.positiveInteger?_ofNat h.sampleRate.1 (Nat.le_trans h.sampleRate.2 hmax)
  have hsamples := Field.positive32?_ofNat h.samplesPerToken.1 h.samplesPerToken.2
  have hsamples64 := Field.positiveInteger?_ofNat h.samplesPerToken.1
    (Nat.le_trans h.samplesPerToken.2 hmax)
  have hlatency := Field.natural?_ofNat h.latencyMs
  simp only [ofRaw, toRaw, SyntheticSettings.ofRaw, notes, hmodelId, hchars, hscale, htokens,
    hvoice, hrate, hrate64, hsamples, hsamples64, hlatency, Field.device?_name,
    Field.flag?_flagText, Field.flag?_map_flagText, note_some, note_map, Option.map_some,
    Option.getD_some, Nat.min_eq_left h.maxTokens.2, List.append_nil]

/-- **Settings are read back from their texts.** -/
theorem ofRaw_toRaw_ofRaw (raw : RawSettings) :
    ofRaw (ofRaw raw).toRaw = { ofRaw raw with ignored := [] } :=
  (isRenderable_ofRaw raw).ofRaw_toRaw

end Settings

end SpeechService
