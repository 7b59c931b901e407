import Mathlib.Data.List.Nodup
import Mathlib.Data.List.TakeWhile
import SpeechService.Settings.Resolved

/-!
# Checked settings

Nine of the settings are **checked**: a text that is given for one of them is looked into once for
the list of ignored values, and the field of the settings is made from what was seen. The two steps
stand apart. Where the second one refuses what the first one has seen, the value is *overlooked*:
the field falls back, and nobody is told.

`CheckedSetting.all` lists the nine in the order of their fields, and
`Settings.ofRaw_reports_all_but_oversized` says what becomes of all of them: the list of ignored
values is the list of the values that are not taken, less those that are overlooked; and only the
two numbers of the synthetic engine that have to fit 32 bits can be overlooked.
-/

namespace SpeechService

/-- A **checked setting**. -/
structure CheckedSetting where
  key : String
  given : RawSettings → Option String
  Seen : Type
  /-- What the check sees in the text. -/
  see : Option String → Option Seen
  Value : Type
  /-- What the field takes of it. -/
  take : Seen → Option Value
  fallback : Value
  field : Settings → Value

namespace CheckedSetting

/-- All checked settings, in the order of their fields. -/
def all : List CheckedSetting := [
  { key := "text_max_chars", given := (·.textMaxChars)
    Seen := Nat, see := Field.positiveInteger?
    Value := Nat, take := some, fallback := 4000
    field := (·.textMaxChars) },
  { key := "default_cfg_scale", given := (·.defaultCfgScale)
    Seen := Double, see := Field.positiveNumber?
    Value := Double, take := some, fallback := .ofNat .double 3
    field := (·.defaultCfgScale) },
  { key := "default_max_tokens", given := (·.defaultMaxTokens)
    Seen := Nat, see := Field.positiveInteger?
    Value := Nat, take := fun n => some (min n Text.max32), fallback := 2048
    field := (·.defaultMaxTokens) },
  { key := "device", given := (·.device)
    Seen := DevicePreference, see := Field.device?
    Value := DevicePreference, take := some, fallback := .auto
    field := (·.device) },
  { key := "eager_load", given := (·.eagerLoad)
    Seen := Bool, see := Field.flag?
    Value := Bool, take := some, fallback := true
    field := (·.eagerLoad) },
  { key := "synthetic.sample_rate", given := (·.synthetic.sampleRate)
    Seen := Nat, see := Field.positiveInteger?
    Value := Nat, take := Option.guard (· ≤ Text.max32), fallback := defaultSampleRate
    field := (·.synthetic.sampleRate) },
  { key := "synthetic.samples_per_token", given := (·.synthetic.samplesPerToken)
    Seen := Nat, see := Field.positiveInteger?
    Value := Nat, take := Option.guard (· ≤ Text.max32), fallback := 960
    field := (·.synthetic.samplesPerToken) },
  { key := "synthetic.latency_ms", given := (·.synthetic.latencyMs)
    Seen := Nat, see := Field.natural?
    Value := Nat, take := some, fallback := 0
    field := (·.synthetic.latencyMs) },
  { key := "synthetic.accelerator", given := (·.synthetic.accelerator)
    Seen := Bool, see := Field.flag?
    Value := Option Bool, take := fun b => some (some b), fallback := none
    field := (·.synthetic.accelerator) }]

variable (c : CheckedSetting) (raw : RawSettings)

/-- The value that the field **takes** from the text that is given. -/
def taken : Option c.Value := (c.see (c.given raw)).bind c.take

/-- The entry for a text that is given and not blank, unless the field takes its value from it. -/
def entry : Option (String × String) :=
  if (c.taken raw).isSome then none
  else ((c.given raw).filter fun s => !Text.isAllBlank s).map (c.key, ·)

/-- The check sees a value, but the field does not take it. -/
def Overlooked : Prop := ∃ v, c.see (c.given raw) = some v ∧ c.take v = none

instance : Decidable (c.Overlooked raw) :=
  decidable_of_iff (((c.see (c.given raw)).any fun v => (c.take v).isNone) = true) <| by
    rw [Overlooked]
    cases c.see (c.given raw) <;> simp

end CheckedSetting

namespace Settings

/-- **Every** value that is given and not taken is listed, once and as it is, in the order of the
fields, and nothing else is. -/
def ReportsAll (raw : RawSettings) : Prop :=
  (ofRaw raw).ignored = CheckedSetting.all.filterMap (·.entry raw)

/-- What becomes of the checked settings. -/
structure Accounted (raw : RawSettings) : Prop where
  /-- A field has the value that it takes from its text, or else its fallback. -/
  field : ∀ c ∈ CheckedSetting.all, c.field (ofRaw raw) = (c.taken raw).getD c.fallback
  /-- The values that are not taken are listed, less those that are overlooked. -/
  ignored : (ofRaw raw).ignored
    = (CheckedSetting.all.filter fun c => ¬c.Overlooked raw).filterMap (·.entry raw)
  /-- So each of them is listed at most once, in the order of the fields. -/
  keys_sublist : ((ofRaw raw).ignored.map (·.1)).Sublist (CheckedSetting.all.map (·.key))
  /-- The overlooked values are the two numbers of the synthetic engine that need more than 32
  bits. -/
  overlooked_iff : ∀ c ∈ CheckedSetting.all, c.Overlooked raw
    ↔ c.key ∈ ["synthetic.sample_rate", "synthetic.samples_per_token"]
      ∧ ∃ n, Field.positiveInteger? (c.given raw) = some n ∧ Text.max32 < n
  /-- Only they stand against a list of all values that are not taken. -/
  reportsAll_iff : ReportsAll raw ↔ ∀ c ∈ CheckedSetting.all, ¬c.Overlooked raw

end Settings

/-! ### The fields -/

namespace CheckedSetting

theorem positive32?_eq (given : Option String) : Field.positive32? given
    = (Field.positiveInteger? given).bind (Option.guard (· ≤ Text.max32)) := by
  rw [Field.positive32?]
  cases Field.positiveInteger? given with
  | none => rfl
  | some n => simp [Option.filter, Option.guard]

/-- A field has the value that it takes from its text, or else its fallback. -/
theorem field_ofRaw (raw : RawSettings) {c : CheckedSetting} (hc : c ∈ all) :
    c.field (Settings.ofRaw raw) = (c.taken raw).getD c.fallback := by
  revert c
  -- The nine fields are read in four ways, and each of these is a case of taking.
  have htakes {α : Type} (v : Option α) (d : α) : v.getD d = (v.bind some).getD d := by
    cases v <;> rfl
  have hnarrow (given : Option String) (d : Nat) : (Field.positive32? given).getD d
      = ((Field.positiveInteger? given).bind (Option.guard (· ≤ Text.max32))).getD d := by
    rw [positive32?_eq]
  have hflag (v : Option Bool) : v = (v.bind fun b => some (some b)).getD none := by
    cases v <;> rfl
  have hclamp (v : Option Nat) (d : Nat) : (v.map (min · Text.max32)).getD d
      = (v.bind fun n => some (min n Text.max32)).getD d := by
    cases v <;> rfl
  simp only [all, List.forall_mem_cons]
  exact ⟨htakes _ _, htakes _ _, hclamp _ _, htakes _ _, htakes _ _, hnarrow _ _, hnarrow _ _,
    htakes _ _, hflag _, fun _ h => nomatch h⟩

/-! ### The list of ignored values -/

variable {c c' : CheckedSetting} {raw : RawSettings}

theorem keys_nodup : (all.map key).Nodup := by decide

theorem eq_of_key_eq (hc : c ∈ all) (hc' : c' ∈ all) (h : c.key = c'.key) : c = c' :=
  List.inj_on_of_nodup_map keys_nodup hc hc' h

theorem key_of_entry {e : String × String} (h : c.entry raw = some e) : e.1 = c.key := by
  rw [entry] at h
  split at h
  · exact nomatch h
  · obtain ⟨s, -, rfl⟩ := Option.map_eq_some_iff.mp h
    rfl

/-- The note on what the check sees is the entry, unless the setting is overlooked. -/
theorem note_eq (c : CheckedSetting) (raw : RawSettings) :
    Settings.note c.key (c.given raw) (c.see (c.given raw))
      = if c.Overlooked raw then [] else (c.entry raw).toList := by
  cases hsee : c.see (c.given raw) with
  -- What the check does not see is noted unless it is blank.
  | none =>
    have hover : ¬c.Overlooked raw := fun ⟨v, hv, _⟩ => nomatch hsee.symm.trans hv
    rw [if_neg hover, entry, taken, hsee]
    cases hgiven : c.given raw with
    | none => rfl
    | some s => by_cases hs : Text.isAllBlank s <;> simp [Settings.note, hs, Option.filter]
  | some v =>
    have hnote : Settings.note c.key (c.given raw) (some v) = [] := by
      rw [Settings.note]
      rintro s _ ⟨⟩
    rw [hnote]
    split
    case isTrue => rfl
    case isFalse hover =>
      have htake : (c.take v).isSome := Option.isSome_iff_ne_none.mpr fun hv => hover ⟨v, hsee, hv⟩
      rw [entry, taken, hsee, Option.bind_some, if_pos htake]
      rfl

theorem notes_eq (raw : RawSettings) :
    Settings.notes raw
      = all.flatMap fun c => Settings.note c.key (c.given raw) (c.see (c.given raw)) := by
  simp only [Settings.notes, all, List.flatMap_cons, List.flatMap_nil, List.append_nil,
    List.append_assoc]

/-! ### Overlooked values -/

theorem not_isAllBlank_of_positiveInteger? {s : String} {n : Nat}
    (h : Field.positiveInteger? (some s) = some n) : Text.isAllBlank s = false := by
  by_contra hblank
  have hnil : Text.trimList s.toList = [] := by
    have hall : ∀ c ∈ s.toList, Text.isBlank c = true :=
      List.all_eq_true.mp (Bool.of_not_eq_false hblank)
    rw [Text.trimList, List.dropWhile_eq_nil_iff.mpr hall]
    rfl
  have hnone : Field.positiveInteger? (some s) = none := by
    rw [Field.positiveInteger?, Field.natural?, Option.bind_some, hnil]
    rfl
  rw [hnone] at h
  cases h

theorem overlooked_iff (hc : c ∈ all) : c.Overlooked raw
    ↔ c.key ∈ ["synthetic.sample_rate", "synthetic.samples_per_token"]
      ∧ ∃ n, Field.positiveInteger? (c.given raw) = some n ∧ Text.max32 < n := by
  revert c
  have hnever {α β : Type} {v : Option α} {f : α → β} {k : String} {p : Prop}
      (hk : k ∉ ["synthetic.sample_rate", "synthetic.samples_per_token"]) :
      (∃ a, v = some a ∧ some (f a) = none) ↔ k ∈ _ ∧ p :=
    iff_of_false (fun ⟨_, _, h⟩ => nomatch h) fun h => hk h.1
  have hnarrow {v : Option Nat} {k : String}
      (hk : k ∈ ["synthetic.sample_rate", "synthetic.samples_per_token"]) :
      (∃ n, v = some n ∧ Option.guard (fun n => decide (n ≤ Text.max32)) n = none)
        ↔ k ∈ ["synthetic.sample_rate", "synthetic.samples_per_token"]
          ∧ ∃ n, v = some n ∧ Text.max32 < n := by
    rw [and_iff_right hk]
    simp [Option.guard]
  simp only [all, List.forall_mem_cons]
  exact ⟨hnever (by decide), hnever (by decide), hnever (by decide), hnever (by decide),
    hnever (by decide), hnarrow (by decide), hnarrow (by decide), hnever (by decide),
    hnever (by decide), fun _ h => nomatch h⟩

/-- An overlooked value would have had an entry. -/
theorem Overlooked.exists_entry (hc : c ∈ all) (h : c.Overlooked raw) :
    ∃ e, c.entry raw = some e := by
  obtain ⟨-, n, hn, -⟩ := (overlooked_iff hc).mp h
  obtain ⟨v, hsee, htake⟩ := h
  cases hgiven : c.given raw with
  | none =>
    rw [hgiven] at hn
    exact nomatch hn
  | some s =>
    have hs : Text.isAllBlank s = false := not_isAllBlank_of_positiveInteger? (hgiven ▸ hn)
    have htaken : c.taken raw = none := by rw [taken, hsee, Option.bind_some, htake]
    exact ⟨(c.key, s), by simp [entry, htaken, hgiven, hs]⟩

end CheckedSetting

namespace Settings

open CheckedSetting

theorem ignored_ofRaw (raw : RawSettings) : (ofRaw raw).ignored
    = (CheckedSetting.all.filter fun c => ¬c.Overlooked raw).filterMap (·.entry raw) := by
  change notes raw = _
  rw [notes_eq]
  induction CheckedSetting.all with
  | nil => rfl
  | cons c rest ih =>
    rw [List.flatMap_cons, ih, note_eq]
    by_cases hover : c.Overlooked raw
    · rw [if_pos hover, List.filter_cons_of_neg (by simpa using hover), List.nil_append]
    · rw [if_neg hover, List.filter_cons_of_pos (by simpa using hover), List.filterMap_cons]
      cases c.entry raw <;> rfl

/-- The keys of the ignored values are some of the checked ones, each at most once and in their
order. -/
theorem ignored_keys_sublist (raw : RawSettings) :
    ((ofRaw raw).ignored.map (·.1)).Sublist (CheckedSetting.all.map (·.key)) := by
  have hkeys : ∀ l : List CheckedSetting,
      ((l.filterMap (·.entry raw)).map (·.1)).Sublist (l.map (·.key)) := by
    intro l
    induction l with
    | nil => exact .slnil
    | cons c rest ih =>
      rw [List.filterMap_cons]
      cases he : c.entry raw with
      | none => exact ih.cons _
      | some e =>
        rw [List.map_cons, List.map_cons, key_of_entry he]
        exact ih.cons_cons _
  rw [ignored_ofRaw]
  exact (hkeys _).trans (List.filter_sublist.map _)

theorem reportsAll_iff (raw : RawSettings) :
    ReportsAll raw ↔ ∀ c ∈ CheckedSetting.all, ¬c.Overlooked raw := by
  rw [ReportsAll, ignored_ofRaw]
  constructor
  · intro h c hc hover
    -- Its entry is on the right, and can only come from the setting of the same key.
    obtain ⟨e, he⟩ := hover.exists_entry hc
    have hmem : e ∈ CheckedSetting.all.filterMap (·.entry raw) := List.mem_filterMap.mpr ⟨c, hc, he⟩
    rw [← h] at hmem
    obtain ⟨c', hc', he'⟩ := List.mem_filterMap.mp hmem
    obtain ⟨hc', hnot⟩ := List.mem_filter.mp hc'
    have hsame : c = c' := eq_of_key_eq hc hc' ((key_of_entry he).symm.trans (key_of_entry he'))
    exact absurd (hsame ▸ hover) (by simpa using hnot)
  · intro h
    rw [List.filter_eq_self.mpr fun c hc => by simpa using h c hc]

/-- **Nothing is dropped silently** but a number of the synthetic engine that needs more than 32
bits. -/
theorem ofRaw_reports_all_but_oversized (raw : RawSettings) : Accounted raw where
  field _ hc := field_ofRaw raw hc
  ignored := ignored_ofRaw raw
  keys_sublist := ignored_keys_sublist raw
  overlooked_iff _ hc := CheckedSetting.overlooked_iff hc
  reportsAll_iff := reportsAll_iff raw

/-- A rate of 2³² is **dropped silently**. -/
theorem not_reportsAll_oversized :
    ¬ReportsAll { synthetic := { sampleRate := some "4294967296" } } := by
  rw [ReportsAll]
  decide +kernel

end Settings

end SpeechService
