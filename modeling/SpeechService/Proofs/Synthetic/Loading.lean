import SpeechService.Proofs.Synthetic.Utterance

/-!
# Loading a synthetic model

What comes of loading, as a function of the files that are there at the time. The device is settled
before anything is loaded, so it is always one that is available: loading only ever fails because
the model is not there or says something that cannot be read (`Settings.LoadFailure.load`). A model
that is loaded is coherent (`Settings.Loaded.coherent`), whatever became of the files in between.
-/

namespace SpeechService

/-- A device that was settled on is available. -/
theorem DevicePreference.available_of_settle {preference : DevicePreference} {available : Bool}
    (h : (preference.settle available).isAccelerated = true) : available = true := by
  cases available
  · cases preference <;> simp [settle, Device.isAccelerated] at h
  · rfl

/-- A model that cannot be found cannot be loaded. -/
theorem ModelSource.load_of_resolve {files : Files} {modelId : String} {x : EngineError}
    (h : resolve files modelId = .error x) : ∃ detail, x = .load detail := by
  rw [resolve] at h
  split at h
  · exact ⟨_, (Except.error.inj h).symm⟩
  · split at h
    · simp at h
    · split at h
      · exact ⟨_, (Except.error.inj h).symm⟩
      · simp at h

theorem Preprocessor.load_of_ofModel {files : Files} {modelId : String} {x : EngineError}
    (h : ofModel files modelId = .error x) : ∃ detail, x = .load detail := by
  rw [ofModel] at h
  cases hr : ModelSource.resolve files modelId with
  | error y =>
    obtain ⟨detail, rfl⟩ := ModelSource.load_of_resolve hr
    rw [hr] at h
    exact ⟨detail, (Except.error.inj h).symm⟩
  | ok source =>
    rw [hr] at h
    cases source with
    | hub name => cases h
    | directory path =>
      have hd : ofDirectory files path = .error x := h
      rw [ofDirectory, Except.mapError.eq_def] at hd
      split at hd
      · exact ⟨_, (Except.error.inj hd).symm⟩
      · cases hd

/-- All that an engine takes from the settings is the size of its blocks. -/
theorem SyntheticSettings.eq_of_loadEngine {s : SyntheticSettings} {accelerated : Bool}
    {files : Files} {modelId : String} {device : Device} {precision : Precision}
    {e : SyntheticEngine} (h : s.loadEngine accelerated files modelId device precision = .ok e) :
    e = { device, precision, samplesPerToken := max s.samplesPerToken 1 } := by
  rw [loadEngine] at h
  split at h
  · cases h
  · cases hr : ModelSource.resolve files modelId with
    | error x =>
      rw [hr] at h
      cases h
    | ok source =>
      rw [hr] at h
      exact (Except.ok.inj h).symm

namespace Settings

variable (s : Settings) (search : DeviceSearch)

/-- The device that the engine runs on. -/
def settled : Device := s.device.settle (s.synthetic.accelerated search)

/-- The engine that is loaded where these files are. -/
def loadEngine (files : Files) : Except EngineError SyntheticEngine :=
  s.synthetic.loadEngine (s.synthetic.accelerated search) files s.modelId (s.settled search)
    (s.settled search).precision

/-- The processor that is loaded where these files are. -/
def loadProcessor (files : Files) : Except EngineError SyntheticProcessor :=
  s.synthetic.loadProcessor files s.modelId

/-- The model of an engine and a processor. -/
def model (engine : SyntheticEngine) (processor : SyntheticProcessor) :
    LoadedModel (s.backend search) :=
  ⟨engine.prepare, processor, s.settled search, (s.settled search).precision⟩

/-- The model that is loaded where these files are. -/
def loadModel (files : Files) : Except EngineError (LoadedModel (s.backend search)) := do
  let engine ← s.loadEngine search files
  let processor ← s.loadProcessor files
  return s.model search engine processor

/-- A model **loaded** from some of the given files; they may have changed between its two
parts. -/
inductive Loaded (files : Files → Prop) : LoadedModel (s.backend search) → Prop where
  | parts {f g engine processor} (hf : files f) (hg : files g)
    (he : s.loadEngine search f = .ok engine) (hp : s.loadProcessor g = .ok processor) :
    Loaded files (s.model search engine processor)

/-- A failure of loading from some of the given files. -/
def LoadFailure (files : Files → Prop) (x : EngineError) : Prop :=
  ∃ f, files f ∧ (s.loadEngine search f = .error x ∨ s.loadProcessor f = .error x)

variable {s search} {files : Files → Prop}

theorem loadModel_of_error {f : Files} {x : EngineError} (h : s.loadEngine search f = .error x) :
    s.loadModel search f = .error x := by
  rw [loadModel, h]
  rfl

theorem loadModel_of_ok {f : Files} {engine : SyntheticEngine}
    (h : s.loadEngine search f = .ok engine) :
    s.loadModel search f = (s.loadProcessor f).map (s.model search engine) := by
  rw [loadModel, h]
  cases s.loadProcessor f with
  | error x => rfl
  | ok processor => rfl

theorem device_of_loadEngine {f : Files} {engine : SyntheticEngine}
    (h : s.loadEngine search f = .ok engine) : engine.device = s.settled search := by
  rw [SyntheticSettings.eq_of_loadEngine h]

/-- **Coherence.** A loaded model is coherent. -/
theorem Loaded.coherent {m : LoadedModel (s.backend search)} (h : s.Loaded search files m) :
    m.Coherent := by
  cases h with
  | @parts f g engine processor hf hg he hp =>
    have hdevice : engine.device = s.settled search := device_of_loadEngine he
    exact ⟨rfl, hdevice⟩

/-- **No device is missed.** Loading fails for no other reason than that the model cannot be
loaded. -/
theorem LoadFailure.load {x : EngineError} (h : s.LoadFailure search files x) :
    ∃ detail, x = .load detail := by
  obtain ⟨f, -, he | hp⟩ := h
  · rw [loadEngine, SyntheticSettings.loadEngine] at he
    split at he
    · next hdevice =>
      exact absurd (DevicePreference.available_of_settle hdevice.1) hdevice.2
    · cases hr : ModelSource.resolve f s.modelId with
      | error y =>
        rw [hr] at he
        obtain rfl : y = x := Except.error.inj he
        exact ModelSource.load_of_resolve hr
      | ok source => simp [hr, Except.map] at he
  · rw [loadProcessor, SyntheticSettings.loadProcessor] at hp
    cases ho : Preprocessor.ofModel f s.modelId with
    | error y =>
      rw [ho] at hp
      obtain rfl : y = x := Except.error.inj hp
      exact Preprocessor.load_of_ofModel ho
    | ok q => simp [ho, Except.map] at hp

end Settings

/-! ### Loading in a service -/

namespace Service

variable {s : Settings} {search : DeviceSearch} {σ : Service (s.backend search)}

/-- A task begins to load the engine. -/
theorem startLoading_eq (hs : σ.settings = s.service) (t : Nat) (errand : Errand) :
    σ.startLoading t errand =
      σ.enter t (.loadingEngine errand (s.settled search) ⟨0, s.loadEngine search σ.world⟩) := by
  have hdevice : σ.settings.device.settle (s.synthetic.accelerated search) = s.settled search := by
    rw [hs]
    rfl
  have hload : s.synthetic.loadEngine (s.synthetic.accelerated search) σ.world σ.settings.modelId
      (s.settled search) (s.settled search).precision = s.loadEngine search σ.world := by
    rw [hs]
    rfl
  rw [← hload, ← hdevice]
  rfl

/-- With the engine there, it goes on to load the processor. -/
theorem takeEngine_ok (hs : σ.settings = s.service) (t : Nat) (errand : Errand) (device : Device)
    (engine : SyntheticEngine) :
    σ.takeEngine t errand device (.ok engine) =
      σ.enter t (.loadingProcessor errand device engine.prepare ⟨0, s.loadProcessor σ.world⟩) := by
  have hload : s.synthetic.loadProcessor σ.world σ.settings.modelId = s.loadProcessor σ.world := by
    rw [hs]
    rfl
  rw [← hload]
  rfl

end Service

end SpeechService
