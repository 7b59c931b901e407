import SpeechService.Proofs.Settings.Checked
import SpeechService.Proofs.Settings.KeyNames
import SpeechService.Proofs.Settings.Leaves

/-!
# Settings that are taken as texts

All settings but those of the server and the log are read as texts, and a text that cannot be used
gives way to a default. A value that has no text is another matter. A store is *readable* when the
values of these settings have no parts, and the synthetic engine is given fields and not a single
value. `Settings.tolerated_of_silent` says what becomes of layers that are silent about the server
and the log: if their store is readable, there are settings, each with the value of its text or else
its default; and if it is not, there are none, but a mismatch. So a list where a text should be
stops the service from starting (`Settings.not_neverAborts_listForText`).
-/

namespace SpeechService

namespace Store

/-- The text of a value without parts. Null has none. -/
def textOf : Scalar → Option String
  | .null => none
  | .bool b => some (Field.flagText b)
  | .integer n => some (Text.ofInt n)
  | .float x => some x.render
  | .string s => some s

/-- The text that is given, if anything is given that has one. -/
def textIn : Option Store → Option String
  | some (.leaf v _) => textOf v
  | _ => none

/-- What is given for a field of a section, under its name or in its place. -/
def givenIn (s : Store) (sect : Section) (field : String) : Option Store :=
  match s.get? sect.key with
  | some (.table ms origin) => (table ms origin).get? field
  | some (.array items _) => items[sect.fields.idxOf field]?
  | _ => none

/-- The **texts** that a store gives for the settings that are taken as texts. -/
def texts (s : Store) : RawSettings where
  modelId := textIn (s.get? "model_id")
  textMaxChars := textIn (s.get? "text_max_chars")
  defaultCfgScale := textIn (s.get? "default_cfg_scale")
  defaultMaxTokens := textIn (s.get? "default_max_tokens")
  defaultVoice := textIn (s.get? "default_voice")
  device := textIn (s.get? "device")
  eagerLoad := textIn (s.get? "eager_load")
  synthetic :=
    { sampleRate := textIn (s.givenIn .synthetic "sample_rate")
      samplesPerToken := textIn (s.givenIn .synthetic "samples_per_token")
      latencyMs := textIn (s.givenIn .synthetic "latency_ms")
      accelerator := textIn (s.givenIn .synthetic "accelerator") }

/-- A **readable** store: what is taken as a text has no parts. -/
structure Readable (s : Store) : Prop where
  own : ∀ key ∈ Leaf.ownKeys, ∀ v ∈ s.get? key, v.IsLeaf
  /-- The synthetic engine is given fields, and all of them where they are given by their places. -/
  fields : ∀ v ∈ s.get? Section.synthetic.key, ¬v.IsLeaf
  complete : ∀ items origin, s.get? Section.synthetic.key = some (.array items origin) →
    Section.synthetic.fields.length ≤ items.length
  field : ∀ field ∈ Section.synthetic.fields, ∀ v ∈ s.givenIn .synthetic field, v.IsLeaf

end Store

namespace Layer

/-- A layer is **silent** about the server and the log when no path of it starts there. -/
def Silent (layer : Layer) : Prop :=
  ∀ e ∈ layer, ∀ sect ∈ [Section.server, .log], e.1.head? ≠ some (.key sect.key)

instance (layer : Layer) : Decidable layer.Silent := inferInstanceAs (Decidable (∀ e ∈ layer, _))

end Layer

namespace Settings

/-- The store of all layers, on top of what the service brings along. -/
def stacked (layers : List Layer) : Store := Layer.builtIn.writeAll (Layer.stack layers).members

/-- A bad value of a setting that is taken as a text **never** stops the service from starting. -/
def NeverAborts (files : Files) (environment : List (String × String)) (path : Option String) :
    Prop :=
  ∀ layers, Layer.all? files environment path = some layers → (∀ layer ∈ layers, layer.Silent) →
    load files environment path = .ok (ofRaw (stacked layers).texts)

/-- What becomes of layers that are silent about the server and the log. -/
structure Tolerated (files : Files) (environment : List (String × String)) (path : Option String)
    (layers : List Layer) : Prop where
  /-- Readable values are taken as they are. -/
  readable : (stacked layers).Readable →
    load files environment path = .ok (ofRaw (stacked layers).texts)
  /-- A value that cannot be used gives way to the default of its field, and the others stay. -/
  field : ∀ s, load files environment path = .ok s → ∀ c ∈ CheckedSetting.all,
    c.field s = (c.taken (stacked layers).texts).getD c.fallback
  /-- There are settings only if all values are readable, and otherwise a mismatch is told. -/
  refused : ¬(stacked layers).Readable →
    ∃ cause, load files environment path = .error (.mismatch cause)

end Settings

/-! ### Values that have a text -/

namespace Store

variable {s : Store} {key : String}

/-- A value is read as a text exactly when it has no parts. -/
theorem textOrNull_eq_ok {v : Store} {t : Option String} :
    textOrNull key v = .ok t ↔ v.IsLeaf ∧ t = textIn (some v) := by
  cases v with
  | leaf x origin =>
    have hok : textOrNull key (.leaf x origin) = .ok (textOf x) := by cases x <;> rfl
    rw [hok]
    constructor
    · rintro ⟨⟩
      exact ⟨isLeaf_leaf x origin, rfl⟩
    · rintro ⟨-, rfl⟩
      rfl
  | array items origin =>
    exact iff_of_false (fun h => nomatch h) fun h => not_isLeaf_array items origin h.1
  | table ms origin =>
    exact iff_of_false (fun h => nomatch h) fun h => not_isLeaf_table ms origin h.1

/-- A value that is missing is read as no text. -/
theorem optional_eq_ok {v : Option Store} {t : Option String} :
    (v.map (textOrNull key)).getD (.ok none) = .ok t
      ↔ (∀ x ∈ v, x.IsLeaf) ∧ t = textIn v := by
  cases v with
  | none =>
    constructor
    · rintro ⟨⟩
      exact ⟨fun x hx => (nomatch hx), rfl⟩
    · rintro ⟨-, rfl⟩
      rfl
  | some v => simpa using textOrNull_eq_ok

/-- A section is given unless a single value stands in its place. -/
theorem given_eq_ok {sect : Section} :
    (∃ g, sect.given s = .ok g) ↔ ∀ v ∈ s.get? sect.key, ¬v.IsLeaf := by
  rw [Section.given]
  cases s.get? sect.key with
  | none => exact iff_of_true ⟨_, rfl⟩ fun v hv => nomatch hv
  | some v =>
    cases v with
    | leaf x origin =>
      exact iff_of_false (fun ⟨_, h⟩ => nomatch h) fun h => h _ rfl (isLeaf_leaf x origin)
    | array items origin =>
      exact iff_of_true ⟨_, rfl⟩ fun v hv => Option.some.inj hv ▸ not_isLeaf_array items origin
    | table ms origin =>
      exact iff_of_true ⟨_, rfl⟩ fun v hv => Option.some.inj hv ▸ not_isLeaf_table ms origin

/-- A field is read if what is given for it has a text, and if it is not missing in its place. -/
theorem readText_eq_ok {sect : Section} {g : Section.Given} (hg : sect.given s = .ok g)
    {field : String} {t : Option String} : sect.readText g field = .ok t
      ↔ (∀ v ∈ s.givenIn sect field, v.IsLeaf)
        ∧ (∀ items origin, s.get? sect.key = some (.array items origin) →
          sect.fields.idxOf field < items.length)
        ∧ t = textIn (s.givenIn sect field) := by
  -- A section that is absent is read as an empty table.
  have hnamed {table : Store} (hgiven : s.givenIn sect field = table.get? field)
      (hplaces : ∀ items origin, s.get? sect.key ≠ some (.array items origin)) :
      sect.readText (.named table) field = .ok t
        ↔ (∀ v ∈ s.givenIn sect field, v.IsLeaf)
          ∧ (∀ items origin, s.get? sect.key = some (.array items origin) →
            sect.fields.idxOf field < items.length)
          ∧ t = textIn (s.givenIn sect field) := by
    have hread : sect.readText (.named table) field
        = ((s.givenIn sect field).map (textOrNull (sect.key ++ "." ++ field))).getD (.ok none) := by
      have hfield : sect.field? (.named table) field
          = (table.get? field).map (sect.key ++ "." ++ field, ·) := rfl
      rw [hgiven, Section.readText.eq_def, hfield]
      cases table.get? field <;> rfl
    rw [hread, optional_eq_ok]
    exact and_congr_right fun _ =>
      (and_iff_right fun items origin h => absurd h (hplaces items origin)).symm
  rw [Section.given] at hg
  split at hg
  case h_1 hnone =>
    obtain rfl := Except.ok.inj hg
    exact hnamed (by rw [givenIn, hnone]; rfl) fun items origin h => nomatch hnone.symm.trans h
  case h_2 ms origin htable =>
    obtain rfl := Except.ok.inj hg
    exact hnamed (by rw [givenIn, htable]) fun items origin h => nomatch htable.symm.trans h
  case h_3 items origin harray =>
    obtain rfl := Except.ok.inj hg
    have hgiven : s.givenIn sect field = items[sect.fields.idxOf field]? := by rw [givenIn, harray]
    have hplace : (∀ items' origin', s.get? sect.key = some (.array items' origin') →
        sect.fields.idxOf field < items'.length) ↔ sect.fields.idxOf field < items.length := by
      rw [harray]
      constructor
      · exact fun h => h _ _ rfl
      · rintro h _ _ ⟨⟩
        exact h
    have hfield : sect.field? (.placed items) field = items[sect.fields.idxOf field]?.map
        (sect.key ++ "[" ++ Text.ofNat (sect.fields.idxOf field) ++ "]", ·) := rfl
    rw [hgiven, hplace, Section.readText.eq_def, hfield]
    by_cases hlt : sect.fields.idxOf field < items.length
    · rw [List.getElem?_eq_getElem hlt, and_iff_right hlt]
      simpa using textOrNull_eq_ok
    · rw [List.getElem?_eq_none (Nat.not_lt.mp hlt)]
      exact iff_of_false (fun h => nomatch h) fun h => hlt h.2.1
  case h_4 => exact nomatch hg

/-! ### Stores that are silent about the server and the log -/

/-- Nothing stands at the server and the log but what the service brings along. -/
def IsSilent (s : Store) : Prop :=
  ∀ sect ∈ [Section.server, .log], s.get? sect.key = Layer.builtIn.get? sect.key

theorem bind_eq_ok {α β : Type} {x : Except Mismatch α} {f : α → Except Mismatch β} {r : β} :
    (x >>= f) = .ok r ↔ ∃ a, x = .ok a ∧ f a = .ok r := by
  cases x with
  | error cause => exact iff_of_false (fun h => nomatch h) fun ⟨_, h, _⟩ => nomatch h
  | ok a =>
    constructor
    · exact fun h => ⟨a, rfl, h⟩
    · rintro ⟨_, ⟨⟩, h⟩
      exact h

/-- The settings of the server and the log of a silent store are the usual ones, so that only texts
are left to be read. -/
theorem ofStore_of_silent (hs : s.IsSilent) : RawSettings.ofStore s = (do
    let text (key : String) := ((s.get? key).map (textOrNull key)).getD (.ok none)
    let modelId ← text "model_id"
    let textMaxChars ← text "text_max_chars"
    let defaultCfgScale ← text "default_cfg_scale"
    let defaultMaxTokens ← text "default_max_tokens"
    let defaultVoice ← text "default_voice"
    let device ← text "device"
    let eagerLoad ← text "eager_load"
    let synthetic ← Section.synthetic.given s
    let sampleRate ← Section.synthetic.readText synthetic "sample_rate"
    let samplesPerToken ← Section.synthetic.readText synthetic "samples_per_token"
    let latencyMs ← Section.synthetic.readText synthetic "latency_ms"
    let accelerator ← Section.synthetic.readText synthetic "accelerator"
    return {
      modelId, textMaxChars, defaultCfgScale, defaultMaxTokens, defaultVoice, device, eagerLoad
      synthetic := { sampleRate, samplesPerToken, latencyMs, accelerator } }) := by
  have hserver : Section.server.given s = Section.server.given Layer.builtIn := by
    rw [Section.given, hs .server (.head _)]
    rfl
  have hlog : Section.log.given s = Section.log.given Layer.builtIn := by
    rw [Section.given, hs .log (.tail _ (.head _))]
    rfl
  rw [RawSettings.ofStore, hserver, hlog]
  rfl

/-- A silent store is read if and only if it is readable, and then as its texts. -/
theorem ofStore_eq_ok (hs : s.IsSilent) (raw : RawSettings) :
    RawSettings.ofStore s = .ok raw ↔ s.Readable ∧ raw = s.texts := by
  rw [ofStore_of_silent hs]
  simp only [bind_eq_ok, optional_eq_ok]
  constructor
  · rintro ⟨_, ⟨h₁, rfl⟩, _, ⟨h₂, rfl⟩, _, ⟨h₃, rfl⟩, _, ⟨h₄, rfl⟩, _, ⟨h₅, rfl⟩, _, ⟨h₆, rfl⟩,
      _, ⟨h₇, rfl⟩, g, hg, _, hrate, _, hsamples, _, hlatency, _, haccelerator, ⟨⟩⟩
    replace ⟨hrate, _, hrateText⟩ := (readText_eq_ok hg).mp hrate
    replace ⟨hsamples, _, hsamplesText⟩ := (readText_eq_ok hg).mp hsamples
    replace ⟨hlatency, _, hlatencyText⟩ := (readText_eq_ok hg).mp hlatency
    replace ⟨haccelerator, hlast, hacceleratorText⟩ := (readText_eq_ok hg).mp haccelerator
    rw [hrateText, hsamplesText, hlatencyText, hacceleratorText]
    refine ⟨⟨?_, given_eq_ok.mp ⟨g, hg⟩, hlast, ?_⟩, rfl⟩
    · simp only [Leaf.ownKeys, List.forall_mem_cons]
      exact ⟨h₁, h₂, h₃, h₄, h₅, h₆, h₇, fun _ h => nomatch h⟩
    · have hfields : Section.synthetic.fields
          = ["sample_rate", "samples_per_token", "latency_ms", "accelerator"] := rfl
      simp only [hfields, List.forall_mem_cons]
      exact ⟨hrate, hsamples, hlatency, haccelerator, fun _ h => nomatch h⟩
  · rintro ⟨h, rfl⟩
    obtain ⟨g, hg⟩ := given_eq_ok.mpr h.fields
    have hown (key : String) (hkey : key ∈ Leaf.ownKeys) :
        (∀ v ∈ s.get? key, v.IsLeaf) ∧ textIn (s.get? key) = textIn (s.get? key) :=
      ⟨h.own key hkey, rfl⟩
    have hfield (field : String) (hfield : field ∈ Section.synthetic.fields) :
        Section.synthetic.readText g field = .ok (textIn (s.givenIn .synthetic field)) := by
      refine (readText_eq_ok hg).mpr ⟨h.field field hfield, fun items origin harray => ?_, rfl⟩
      have hlength := h.complete items origin harray
      exact Nat.lt_of_lt_of_le (List.idxOf_lt_length_iff.mpr hfield) hlength
    exact ⟨_, hown _ (by decide), _, hown _ (by decide), _, hown _ (by decide),
      _, hown _ (by decide), _, hown _ (by decide), _, hown _ (by decide), _, hown _ (by decide),
      g, hg, _, hfield _ (by decide), _, hfield _ (by decide), _, hfield _ (by decide),
      _, hfield _ (by decide), rfl⟩

end Store

/-! ### Silent layers -/

namespace Layer

/-- The entries of a layer begin with a name. -/
theorem exists_key_of_ofStore? {s : Store} {layer : Layer} (h : ofStore? s = some layer) :
    ∀ e ∈ layer, ∃ name path, e.1 = .key name :: path := by
  cases s with
  | table ms origin =>
    obtain rfl := Option.some.inj h
    intro e he
    obtain ⟨⟨key, value⟩, -, rfl⟩ := List.mem_map.mp he
    dsimp only
    exact KeyPath.exists_ofKey_eq key
  | leaf v origin => exact nomatch h
  | array items origin => exact nomatch h

theorem exists_key_of_ofFile? {files : Files} {required : Bool} {name : String} {layer : Layer}
    (h : ofFile? files required name = some layer) :
    ∀ e ∈ layer, ∃ name path, e.1 = .key name :: path := by
  rw [ofFile?] at h
  split at h
  · obtain ⟨v, -, hv⟩ := Option.bind_eq_some_iff.mp h
    exact exists_key_of_ofStore? hv
  · split at h
    · exact nomatch h
    · obtain rfl := Option.some.inj h
      exact fun e he => nomatch he

theorem exists_key_of_ofEnvironment (environment : List (String × String)) :
    ∀ e ∈ ofEnvironment environment, ∃ name path, e.1 = .key name :: path := by
  intro e he
  obtain ⟨⟨name, value⟩, -, he⟩ := List.mem_filterMap.mp he
  obtain ⟨path, hpath, rfl⟩ := Option.map_eq_some_iff.mp he
  obtain ⟨rest, -, rfl⟩ := Option.map_eq_some_iff.mp hpath
  dsimp only
  exact KeyPath.exists_ofKey_eq (String.ofList (KeyPath.pointed rest))

/-- Every path of the settings starts with a key. -/
theorem exists_key_of_all? {files : Files} {environment : List (String × String)}
    {path : Option String} {layers : List Layer} (h : all? files environment path = some layers) :
    ∀ layer ∈ layers, ∀ e ∈ layer, ∃ name path, e.1 = .key name :: path := by
  cases path with
  | some name =>
    simp only [all?, Option.bind_eq_bind, Option.bind_eq_some_iff, Option.map_eq_some_iff,
      Option.some.injEq] at h
    obtain ⟨_, ⟨layer, hfile, rfl⟩, rfl⟩ := h
    exact List.forall_mem_cons.mpr ⟨exists_key_of_ofFile? hfile,
      List.forall_mem_singleton.mpr (exists_key_of_ofEnvironment environment)⟩
  | none =>
    simp only [all?, usualNames, List.mapM_cons, List.mapM_nil, Option.bind_eq_bind,
      Option.bind_eq_some_iff, Option.pure_def, Option.some.injEq] at h
    obtain ⟨_, ⟨shared, hshared, _, ⟨own, hown, _, rfl, rfl⟩, rfl⟩, rfl⟩ := h
    exact List.forall_mem_cons.mpr ⟨exists_key_of_ofFile? hshared,
      List.forall_mem_cons.mpr ⟨exists_key_of_ofFile? hown,
        List.forall_mem_singleton.mpr (exists_key_of_ofEnvironment environment)⟩⟩

end Layer

namespace Settings

variable {files : Files} {environment : List (String × String)} {path : Option String}
  {layers : List Layer}

/-- A stack of silent layers is silent, since the built-in layer is. -/
theorem isSilent_stacked (h : Layer.all? files environment path = some layers)
    (hs : ∀ layer ∈ layers, layer.Silent) : (stacked layers).IsSilent := by
  intro sect hsect
  have hkeys := Layer.exists_key_of_all? h
  have hnone : (Layer.stack layers).get? sect.key = none := by
    -- Each layer is written on what those below it leave, so the induction needs any store.
    have hstack : ∀ s : Store, (layers.foldl Layer.writeTo s).get? sect.key = s.get? sect.key := by
      clear h
      induction layers with
      | nil => exact fun s => rfl
      | cons layer layers ih =>
        obtain ⟨hlayer, hs⟩ := List.forall_mem_cons.mp hs
        obtain ⟨hkey, hkeys⟩ := List.forall_mem_cons.mp hkeys
        intro s
        rw [List.foldl_cons, ih hs hkeys]
        refine Store.get?_writeTo fun e he => ?_
        obtain ⟨name, path, hpath⟩ := hkey e he
        refine ⟨name, path, hpath, fun hname => hlayer e he sect hsect ?_⟩
        rw [hpath, hname]
        rfl
    exact hstack .empty
  exact Store.get?_writeAll_of_lookup_none hnone

/-- The usual settings of the server pass the check. -/
theorem checked_texts (s : Store) : checked s.texts = .ok (ofRaw s.texts) := by
  have hserver : (ofRaw s.texts).server = {} := rfl
  have hcheck : (ofRaw s.texts).check? = none := by
    rw [check?, hserver]
    decide
  rw [checked, hcheck]

theorem ofLayers_of_ok {raw : RawSettings} (h : RawSettings.ofStore (stacked layers) = .ok raw) :
    ofLayers layers = checked raw := by
  rw [stacked] at h
  simp only [ofLayers, h]

theorem ofLayers_of_error {cause : Mismatch}
    (h : RawSettings.ofStore (stacked layers) = .error cause) :
    ofLayers layers = .error (.mismatch cause) := by
  rw [stacked] at h
  simp only [ofLayers, h]

/-- **Tolerance** of bad values, as far as it goes. -/
theorem tolerated_of_silent (files : Files) (environment : List (String × String))
    (path : Option String) (layers : List Layer)
    (h : Layer.all? files environment path = some layers) (hs : ∀ layer ∈ layers, layer.Silent) :
    Tolerated files environment path layers := by
  have hread := Store.ofStore_eq_ok (isSilent_stacked h hs)
  have hload : load files environment path = ofLayers layers := by rw [load, h]
  have hok : (stacked layers).Readable →
      load files environment path = .ok (ofRaw (stacked layers).texts) := by
    intro hr
    rw [hload, ofLayers_of_ok ((hread _).mpr ⟨hr, rfl⟩)]
    exact checked_texts _
  have hrefused : ¬(stacked layers).Readable →
      ∃ cause, load files environment path = .error (.mismatch cause) := by
    intro hr
    cases hraw : RawSettings.ofStore (stacked layers) with
    | error cause => exact ⟨cause, hload.trans (ofLayers_of_error hraw)⟩
    | ok raw => exact absurd ((hread raw).mp hraw).1 hr
  refine ⟨hok, fun s hsettings c hc => ?_, hrefused⟩
  by_cases hr : (stacked layers).Readable
  · obtain rfl := Except.ok.inj ((hok hr).symm.trans hsettings)
    exact CheckedSetting.field_ofRaw _ hc
  · obtain ⟨cause, herror⟩ := hrefused hr
    exact nomatch herror.symm.trans hsettings

/-- Whether layers are silent can be computed. -/
theorem exists_silent (h : (Layer.all? files environment path).any
    (fun layers => ∀ layer ∈ layers, layer.Silent) = true) :
    ∃ layers, Layer.all? files environment path = some layers ∧ ∀ layer ∈ layers, layer.Silent := by
  cases hall : Layer.all? files environment path with
  | none =>
    rw [hall] at h
    exact nomatch h
  | some layers =>
    rw [hall] at h
    exact ⟨layers, rfl, of_decide_eq_true h⟩

/-- An environment with a device that does not exist. -/
def unknownDevice : List (String × String) := [("KUGELAUDIO_DEVICE", "quantum")]

/-- The device gives way to the usual one. -/
theorem tolerated_of_silent_unknownDevice :
    ∃ layers, Layer.all? {} unknownDevice none = some layers ∧ (∀ layer ∈ layers, layer.Silent)
      ∧ Tolerated {} unknownDevice none layers
      ∧ (load {} unknownDevice none).toOption.map (·.device) = some .auto := by
  obtain ⟨layers, hall, hsilent⟩ := exists_silent (by decide +kernel :
    (Layer.all? {} unknownDevice none).any (fun layers => ∀ layer ∈ layers, layer.Silent) = true)
  exact ⟨layers, hall, hsilent, tolerated_of_silent {} unknownDevice none layers hall hsilent,
    by decide +kernel⟩

/-- A file with a list where a text should be. -/
def listForText : Files where
  workingDirectory := ["srv"]
  entries := [(["srv", "config.toml"], .file "default_voice = [\"alice\"]".toUTF8.toList)]

/-- It **stops** the service from starting. -/
theorem not_neverAborts_listForText : ¬NeverAborts listForText [] none := by
  intro h
  obtain ⟨layers, hall, hsilent⟩ := exists_silent (by decide +kernel :
    (Layer.all? listForText [] none).any (fun layers => ∀ layer ∈ layers, layer.Silent) = true)
  have hnone : (load listForText [] none).toOption = none := by decide +kernel
  rw [h layers hall hsilent] at hnone
  exact nomatch hnone

end Settings

end SpeechService
