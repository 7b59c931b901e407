import SpeechService.Proofs.Settings.Usable
import SpeechService.Proofs.Synthetic.ExactOutcome

/-!
# The voices of a model

A model may list the voices that it has. Whether a request is heard then depends on the name of its
voice only (`Settings.hears_voices`): the name is trimmed, and what is left of it must be on the
list, letter by letter. A request without a voice is heard with the default voice, and where there
is none, it is heard with any list.

The names on the list are not trimmed. So a voice whose listed name has blanks at its ends cannot be
asked for at all (`Settings.not_hearsAllListed_blanksAround`).
-/

namespace SpeechService

open Http
open Text (IsTrimmed Trims)

/-- A new session with a service that has no tasks is idle. -/
theorem Session.idle_of_tasks {B : Backend} {σ : Service B} (h : σ.tasks = []) :
    ({ service := σ } : Session B).Idle := by
  have hnone (t : Nat) : σ.phase? t = none := by
    rw [Service.phase?, h]
    rfl
  exact ⟨rfl, rfl, fun t p hp => absurd ((hnone t).symm.trans hp) (by simp), fun t _ => hnone t⟩

namespace Settings

variable (s : Settings) (search : DeviceSearch) (σ : Service (s.backend search))
  (orders : Nat → Option Session.Order) (r : Request)

/-- A **response** that a request may get from a service that has come to `σ`: when it has an idle
session to itself, or when it ends among others. -/
inductive Responds : HttpResponse → Prop where
  | alone {S : Session (s.backend search)} (hS : S.service = σ) (hidle : S.Idle) :
    Responds (S.speak Wav.encoder r).2
  | among {e t p x} (ht : orders t = some (.speak r)) (hp : σ.phase? t = some p)
    (hlive : p.ending? = none) (hx : (σ.step e).phase? t = some (.ended x)) :
    Responds (ofEnding Wav.encoder x)

/-- The response to a request whose voice the model does not list. -/
def unknownVoice (v : String) : HttpResponse := failed (.badRequest ("unknown voice: " ++ v)) true

/-- The response to a request by its voice, from a model that lists these voices. -/
def heard (m : LoadedModel (s.backend search)) (voices : List String) : HttpResponse :=
  let p := s.defaults.resolve r
  match p.voice with
  | some v => if v ∈ voices then speech (m.file (Text.trim r.text) p) else unknownVoice v
  | none => speech (m.file (Text.trim r.text) p)

/-- The model `m` is there, it **lists** the voices, and the gate is open. -/
structure Lists (m : LoadedModel (s.backend search)) (voices : List String) : Prop where
  model : σ.model = some m
  voices : m.reader.voices = some voices
  opened : σ.gate.closed = false

variable {s search σ orders r} {m : LoadedModel (s.backend search)} {voices : List String}
  {around : Surroundings} {y : HttpResponse}

/-- **What decides.** The voice of the parameters is on the list, or it is not. -/
theorem Responds.eq (h : s.Responds search σ orders r y) (hσ : σ.OnCourse around orders)
    (hl : σ.LoadSound) (hg : σ.GateSound) (hm : s.Lists search σ m voices)
    (hr : ¬s.RefusesText r) : y = s.heard search r m voices := by
  obtain ⟨hmodel, hvoices, hopen⟩ := hm
  rw [heard]
  cases h with
  | alone hS hidle =>
    obtain ⟨hempty, hlong⟩ := not_or.mp hr
    have hfor : s.modelFor search σ = .ok m := by rw [modelFor, hmodel]
    rw [(speak_idle hσ hl hg hS hidle r).1, response, if_neg hempty, if_neg hlong, hfor]
    simp only [hopen, Bool.false_eq_true, if_false]
    cases hv : (s.defaults.resolve r).voice with
    | none => exact if_pos rfl
    | some v => simp [SyntheticProcessor.knows, hvoices, unknownVoice]
  | among ht hp hlive hx =>
    have hends := ends_of_step hσ hl ht hp hlive hx
    generalize ofEnding Wav.encoder _ = y at hends ⊢
    cases hends with
    | text hr' => exact absurd hr' hr
    | load _ hm' => simp [hmodel] at hm'
    | closed _ _ hc => simp [hopen] at hc
    | @voice m' v known _ hm' _ hv hk hn =>
      obtain rfl : m = m' := Option.some.inj (hmodel.symm.trans hm')
      obtain rfl : voices = known := Option.some.inj (hvoices.symm.trans hk)
      simp only [hv, if_neg hn, unknownVoice]
    | @speech m' call _ hm' _ hk =>
      obtain rfl : m = m' := Option.some.inj (hmodel.symm.trans hm')
      cases hv : (s.defaults.resolve r).voice with
      | none => rfl
      | some v =>
        have hmem : v ∈ voices := by simpa [SyntheticProcessor.knows, hv, hvoices] using hk
        simp only [if_pos hmem]

theorem heard_of_voice {v : String} (h : (s.defaults.resolve r).voice = some v) :
    s.heard search r m voices = if v ∈ voices then
      speech (m.file (Text.trim r.text) (s.defaults.resolve r)) else unknownVoice v := by
  simp only [heard, h]

theorem heard_of_none (h : (s.defaults.resolve r).voice = none) :
    s.heard search r m voices = speech (m.file (Text.trim r.text) (s.defaults.resolve r)) := by
  simp only [heard, h]

/-- A list of voices comes from the file in the directory of the model. -/
theorem Loaded.exists_directory {files : Files → Prop} (h : s.Loaded search files m)
    (hv : m.reader.voices = some voices) : ∃ f path q, files f ∧
      ModelSource.resolve f s.modelId = .ok (.directory path) ∧
        Preprocessor.ofDirectory f path = .ok q ∧ q.voices = some voices := by
  cases h with
  | @parts f g engine processor hf hg he hp =>
    rw [loadProcessor, SyntheticSettings.loadProcessor] at hp
    cases hq : Preprocessor.ofModel g s.modelId with
    | error x =>
      rw [hq] at hp
      cases hp
    | ok q =>
      rw [hq] at hp
      obtain rfl := Except.ok.inj hp
      rw [Preprocessor.ofModel] at hq
      cases hsource : ModelSource.resolve g s.modelId with
      | error x =>
        rw [hsource] at hq
        cases hq
      | ok source =>
        rw [hsource] at hq
        cases source with
        | hub name =>
          obtain rfl := Except.ok.inj hq
          cases hv
        | directory path => exact ⟨g, path, q, hg, hsource, hq, hv⟩

/-! ### Every history -/

/-- How a service that has come to `σ`, with its `orders` so far, hears the voices on a list. -/
structure HearsVoices (s : Settings) (search : DeviceSearch) (files : Files → Prop)
    (σ : Service (s.backend search)) (orders : Nat → Option Session.Order) : Prop where
  /-- The list is the one in the directory of the model, name by name. -/
  origin : ∀ m voices, s.Lists search σ m voices → ∃ f path q, files f ∧
    ModelSource.resolve f s.modelId = .ok (.directory path) ∧
      Preprocessor.ofDirectory f path = .ok q ∧ q.voices = some voices
  /-- A voice whose trimmed name is on the list is heard. -/
  known : ∀ m voices r y, s.Lists search σ m voices → ¬s.RefusesText r →
    s.Responds search σ orders r y → ∀ v t, r.voice = some v → Trims v t → t ≠ "" → t ∈ voices →
      y = speech (m.file (Text.trim r.text) (s.defaults.resolve r))
  /-- A voice whose trimmed name is not on the list is unknown. -/
  unknown : ∀ m voices r y, s.Lists search σ m voices → ¬s.RefusesText r →
    s.Responds search σ orders r y → ∀ v t, r.voice = some v → Trims v t → t ≠ "" → t ∉ voices →
      y = unknownVoice t
  /-- Without a voice and a default voice, every request is heard. -/
  voiceless : ∀ m voices r y, s.Lists search σ m voices → ¬s.RefusesText r →
    s.Responds search σ orders r y → (∀ v ∈ r.voice, Trims v "") → s.defaultVoice = none →
      y = speech (m.file (Text.trim r.text) (s.defaults.resolve r))
  /-- Without a voice, the default voice must be on the list. -/
  byDefault : ∀ m voices r y, s.Lists search σ m voices → ¬s.RefusesText r →
    s.Responds search σ orders r y → (∀ v ∈ r.voice, Trims v "") → ∀ v, s.defaultVoice = some v →
      y = if v ∈ voices then speech (m.file (Text.trim r.text) (s.defaults.resolve r))
        else unknownVoice v

/-- Where a service has come to by some events, among which the files may have changed. -/
private theorem onCourse_run (s : Settings) (search : DeviceSearch) (files : Files)
    (es : List (ServiceEvent (s.backend search))) : ((s.start search files).run es).OnCourse
      ⟨fun f => f = files ∨ .change f ∈ es, True⟩
        ((s.start search files).notes (fun _ => none) es) := by
  refine (Service.onCourse_start s search (Or.inl rfl)).run (Service.loadSound_new _ _) es
    fun e he => ?_
  cases e with
  | change f => exact Or.inr he
  | _ => trivial

/-- Every response is the one that the voice decides. -/
private theorem eq_heard {files : Files} {es : List (ServiceEvent (s.backend search))}
    (hm : s.Lists search ((s.start search files).run es) m voices) (hr : ¬s.RefusesText r)
    (hy : s.Responds search ((s.start search files).run es)
      ((s.start search files).notes (fun _ => none) es) r y) : y = s.heard search r m voices :=
  hy.eq (onCourse_run s search files es) (Service.LoadSound.run (Service.loadSound_new _ _) es)
    (Service.GateSound.run (Service.gateSound_new _ _) es) hm hr

/-- **Voices.** For all settings and files, and after any events at all, among which the files may
change. -/
theorem hears_voices (s : Settings) (search : DeviceSearch) (files : Files)
    (es : List (ServiceEvent (s.backend search))) :
    s.HearsVoices search (fun f => f = files ∨ .change f ∈ es) ((s.start search files).run es)
      ((s.start search files).notes (fun _ => none) es) where
  origin m voices hm :=
    ((onCourse_run s search files es).loaded m hm.model).exists_directory hm.voices
  known m voices r y hm hr hy v t hv ht hne hmem := by
    rw [eq_heard hm hr hy, heard_of_voice (s.defaults.resolve_voice r hv ht hne), if_pos hmem]
  unknown m voices r y hm hr hy v t hv ht hne hmem := by
    rw [eq_heard hm hr hy, heard_of_voice (s.defaults.resolve_voice r hv ht hne), if_neg hmem]
  voiceless m voices r y hm hr hy hblank hnone := by
    have hvoice := s.defaults.resolve_voice_default r hblank
    rw [eq_heard hm hr hy, heard_of_none (hvoice.trans hnone)]
  byDefault m voices r y hm hr hy hblank v hv := by
    have hvoice := s.defaults.resolve_voice_default r hblank
    rw [eq_heard hm hr hy, heard_of_voice (hvoice.trans hv)]

/-! ### Names with blanks at their ends -/

/-- Every voice on the list is heard when it is asked for by the name that is listed. -/
def HearsAllListed (s : Settings) (search : DeviceSearch) (σ : Service (s.backend search))
    (orders : Nat → Option Session.Order) : Prop :=
  ∀ m voices r y, s.Lists search σ m voices → ¬s.RefusesText r →
    s.Responds search σ orders r y → ∀ v, r.voice = some v → Text.isAllBlank v = false →
      v ∈ voices → ∀ w, y ≠ unknownVoice w

/-- A voice is not heard by its listed name if that name is another one when it is trimmed, which is
not listed. -/
private theorem not_hearsAllListed {files : Files} {es : List (ServiceEvent (s.backend search))}
    {v t : String} (hlists : s.Lists search ((s.start search files).run es) m voices)
    (htasks : ((s.start search files).run es).tasks = []) (hr : ¬s.RefusesText r)
    (hv : r.voice = some v) (hblank : Text.isAllBlank v = false) (hmem : v ∈ voices)
    (ht : (s.defaults.resolve r).voice = some t) (hn : t ∉ voices) :
    ¬s.HearsAllListed search ((s.start search files).run es)
      ((s.start search files).notes (fun _ => none) es) := by
  intro h
  have hresponds : s.Responds search ((s.start search files).run es)
      ((s.start search files).notes (fun _ => none) es) r _ :=
    .alone rfl (Session.idle_of_tasks htasks)
  refine h m voices r _ hlists hr hresponds v hv hblank hmem t ?_
  rw [eq_heard hlists hr hresponds, heard_of_voice ht, if_neg hn]

/-- A model in the directory `m` that lists one voice, with a blank at either end of its name. -/
def blanksAround : Files where
  workingDirectory := ["srv"]
  entries := [(["srv", "m"], .directory), (["srv", "m", "preprocessor_config.json"],
    .file "\x7b\"voices\": [\" alice \"]\x7d".toUTF8.toList)]

/-- This voice is not heard, though it is asked for by the name that is listed. -/
theorem not_hearsAllListed_blanksAround :
    let s : Settings := { modelId := "m" }
    let es : List (ServiceEvent (s.backend {})) :=
      [.summon 0, .advance 0, .answer 0, .answer 0, .cancel 0]
    ¬s.HearsAllListed {} ((s.start {} blanksAround).run es)
      ((s.start {} blanksAround).notes (fun _ => none) es) := by
  intro s es
  have hvoices : ((s.start {} blanksAround).run es).model.map (·.reader.voices) =
      some (some [" alice "]) := by decide +kernel
  obtain ⟨m, hmodel, hreader⟩ := Option.map_eq_some_iff.mp hvoices
  have hopen : ((s.start {} blanksAround).run es).gate.closed = false := by decide +kernel
  have htasks : ((s.start {} blanksAround).run es).tasks.isEmpty = true := by decide +kernel
  have hr : ¬s.RefusesText { text := "hi", voice := some " alice " } := by
    rw [RefusesText]
    decide +kernel
  exact not_hearsAllListed ⟨hmodel, hreader, hopen⟩ (List.isEmpty_iff.mp htasks) hr rfl
    (by decide +kernel) List.mem_cons_self (t := "alice") (by decide +kernel) (by decide)

end Settings

end SpeechService
