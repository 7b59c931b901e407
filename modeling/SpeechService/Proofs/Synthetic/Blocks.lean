import SpeechService.Proofs.Http.Headers
import SpeechService.Proofs.Synthetic.ExactOutcome

/-!
# Speech in blocks

The samples of a file with synthetic speech are **blocks**, one for each character that is said, in
order. The block of a character is a function of the character, the voice, the guidance scale and
the device (`Tone.coded`): where the character stands, what stands around it, and how many tokens
are allowed play no part in it.

On the way from a text to a file there is one place where this could go wrong: the engine takes
turns, and the token of a turn comes out of a cyclic index. There are never more turns than tokens,
so that no token comes round again (`Tone.render_eq`). All that follows on the way acts on each
sample alone: the precision of the device, the code of a sample, its two bytes.

`Settings.inBlocks_of_answered` says this of every body that any service ever answers with, after
any history, and what follows for two or three of them: with more tokens allowed a body only goes
on, and a text that is made of two has the samples of the two.
-/

namespace SpeechService

open Http

/-! ### Turns -/

namespace Tone

variable (size : Nat) (pitch amplitude : Single) (tokens : List Single)

theorem length_block (token : Single) : (block size pitch amplitude token).length = size := by
  rw [block, List.length_map, List.length_range]

theorem turns_eq (maxTokens : Nat) : turns maxTokens tokens = min tokens.length maxTokens := by
  cases tokens with
  | nil => exact (Nat.zero_min maxTokens).symm
  | cons token tokens => rfl

/-- No token comes round again before there are more turns than tokens. -/
theorem tokenAt?_of_lt {turn : Nat} (h : turn < tokens.length) :
    tokenAt? tokens turn = tokens[turn]? := by
  rw [tokenAt?, Nat.mod_eq_of_lt h]

/-- The first turns are those of the first tokens. -/
theorem flatMap_samplesAt {n : Nat} (h : n ≤ tokens.length) :
    (List.range n).flatMap (samplesAt size pitch amplitude tokens)
      = (tokens.take n).flatMap (block size pitch amplitude) := by
  induction n with
  | zero => rfl
  | succ n ih =>
    -- The last of the turns is still one of a token that has not sounded yet.
    have hturn : samplesAt size pitch amplitude tokens n
        = tokens[n]?.toList.flatMap (block size pitch amplitude) := by
      rw [samplesAt, tokenAt?_of_lt tokens h, List.getElem?_eq_getElem h]
      exact (List.flatMap_singleton _ _).symm
    rw [List.range_succ, List.flatMap_append, ih (Nat.le_of_lt h), List.take_add_one,
      List.flatMap_append, List.flatMap_singleton, hturn]

/-- **Turns.** What is rendered are the blocks of the first tokens. -/
theorem render_eq (maxTokens : Nat) : render size pitch amplitude maxTokens tokens
    = (tokens.take maxTokens).flatMap (block size pitch amplitude) := by
  have hle : min maxTokens tokens.length ≤ tokens.length := Nat.min_le_right ..
  rw [render, turns_eq, Nat.min_comm, flatMap_samplesAt size pitch amplitude tokens hle,
    ← List.take_take, List.take_length]

/-- The **block of a character**: the codes that a file has for it. -/
def coded (size : Nat) (device : Device) (voice : Option String) (cfgScale : Double) (c : Char) :
    List Int :=
  (block size (.convert .single (SyntheticProcessor.voicePitch voice)) (Tone.amplitude cfgScale)
    (.ofNat .single c.toNat)).map fun x => Wav.pcm (device.precision.store x)

theorem length_coded (device : Device) (voice : Option String) (cfgScale : Double) (c : Char) :
    (coded size device voice cfgScale c).length = size := by
  rw [coded, List.length_map, length_block]

end Tone

/-! ### What is said -/

namespace Parameters

/-- Parameters that are **alike** differ in the number of tokens at most. -/
def Alike (p q : Parameters) : Prop := p.voice = q.voice ∧ p.cfgScale = q.cfgScale

/-- The codes of some characters, one block after another. -/
def codes (p : Parameters) (size : Nat) (device : Device) (text : List Char) : List Int :=
  (text.take p.maxTokens).flatMap (Tone.coded size device p.voice p.cfgScale)

variable (p : Parameters) (size : Nat) (device : Device) (text : List Char)

theorem length_codes :
    (p.codes size device text).length = min text.length p.maxTokens * size := by
  have hsize (c : Char) := Tone.length_coded size device p.voice p.cfgScale c
  simp only [codes, List.length_flatMap, hsize, List.map_const', List.sum_replicate_nat,
    List.length_take, Nat.min_comm]

/-- With more tokens allowed, more is said, and what was said stays. -/
theorem prefix_codes {q : Parameters} (h : p.Alike q) (hle : p.maxTokens ≤ q.maxTokens) :
    p.codes size device text <+: q.codes size device text := by
  obtain ⟨hvoice, hscale⟩ := h
  refine ⟨((text.drop p.maxTokens).take (q.maxTokens - p.maxTokens)).flatMap
    (Tone.coded size device p.voice p.cfgScale), ?_⟩
  rw [codes, codes, ← hvoice, ← hscale, ← List.flatMap_append, ← List.take_add,
    Nat.add_sub_cancel' hle]

/-- A text that is not cut is said in full. -/
theorem codes_of_le {q : Parameters} (h : p.Alike q) (hle : text.length ≤ q.maxTokens) :
    q.codes size device text = text.flatMap (Tone.coded size device p.voice p.cfgScale) := by
  obtain ⟨hvoice, hscale⟩ := h
  rw [codes, List.take_of_length_le hle, hvoice, hscale]

end Parameters

/-- The codes behind the header of a file of one channel. -/
def Wav.codes? (file : List UInt8) : Option (List Int) := readCodes? (file.drop (headerSize 1))

theorem Wav.codes?_file (rate : Nat) (samples : List Single) :
    codes? (file 1 rate (samples.map pcm)) = some (samples.map pcm) :=
  readCodes?_drop_file 1 rate samples

namespace Settings

variable {s : Settings} {search : DeviceSearch}

/-- The block of a character in a service of these settings. -/
def block (s : Settings) (search : DeviceSearch) (voice : Option String) (cfgScale : Double) :
    Char → List Int :=
  Tone.coded (max s.synthetic.samplesPerToken 1) (s.settled search) voice cfgScale

/-- The codes of a text in a service of these settings. -/
def codes (s : Settings) (search : DeviceSearch) (p : Parameters) (text : String) : List Int :=
  p.codes (max s.synthetic.samplesPerToken 1) (s.settled search) text.toList

theorem engine_of_loadEngine {f : Files} {engine : SyntheticEngine}
    (h : s.loadEngine search f = .ok engine) :
    engine.precision = (s.settled search).precision
      ∧ engine.samplesPerToken = max s.synthetic.samplesPerToken 1 := by
  rw [SyntheticSettings.eq_of_loadEngine h]
  exact ⟨rfl, rfl⟩

/-- A loaded model says a text in blocks. -/
theorem Loaded.codes_eq {files : Files → Prop} {m : LoadedModel (s.backend search)}
    (h : s.Loaded search files m) (text : String) (p : Parameters) :
    (m.clip text p).samples.map Wav.pcm = s.codes search p text := by
  cases h with
  | @parts f g engine processor hf hg he hp =>
    obtain ⟨hprecision, hsize⟩ := engine_of_loadEngine he
    have hsamples : ((s.model search engine processor).clip text p).samples
        = engine.samples text p := rfl
    -- From here on every step acts on each sample alone, and so on each block.
    rw [hsamples, SyntheticEngine.samples, hprecision, hsize, Tone.render_eq,
      SyntheticProcessor.numbers, ← List.map_take, List.flatMap_map, List.map_flatMap,
      List.map_flatMap]
    refine List.flatMap_congr fun c _ => ?_
    rw [Tone.coded, List.map_map]
    rfl

/-- A request that is answered with a sound is answered with its file. -/
theorem Ended.speech_of_status {around : Surroundings} {r : Request}
    {model : Option (LoadedModel (s.backend search))} {x : Ending (s.backend search)}
    (h : s.Ended search around (.speak r) model x) (hok : (ofEnding Wav.encoder x).status = 200) :
    ∃ m, model = some m ∧ ofEnding Wav.encoder x
      = Http.speech (m.file (Text.trim r.text) (s.defaults.resolve r)) := by
  cases h with
  | text h => exact absurd hok (status_failed_ne _)
  | failed h hy =>
    obtain ⟨-, _, -, rfl⟩ := errand_eq_ok h
    exact absurd hok (status_failed_ne _)
  | closed h hc => exact absurd hok (status_failed_ne _)
  | loaded h hm =>
    obtain ⟨-, _, -, herrand⟩ := errand_eq_ok h
    cases herrand
  | @uttered m text p h hm =>
    obtain ⟨-, htext, rfl⟩ := errand_eq_speak h
    refine ⟨m, hm, ?_⟩
    rw [LoadedModel.utterance, htext] at hok ⊢
    split at hok
    · next hk => rw [if_pos hk, ofEnding, LoadedModel.file_clip]
    · exact absurd hok (status_failed_ne _)

/-! ### Answers -/

/-- A service of these settings has **answered** a request with a body and the status 200, after
some history; there may have been any files at first. -/
def Answered (s : Settings) (search : DeviceSearch) (r : Request) (body : List UInt8) : Prop :=
  ∃ files es t x, (s.start search files).notes (fun _ => none) es t = some (.speak r)
    ∧ ((s.start search files).run es).phase? t = some (.ended x)
    ∧ (ofEnding Wav.encoder x).status = 200 ∧ (ofEnding Wav.encoder x).body = body

/-- The body of an answer is the file of what the service says. -/
theorem Answered.exists_file {r : Request} {body : List UInt8} (h : s.Answered search r body) :
    ∃ (rate : Nat) (samples : List Single), body = Wav.file 1 rate (samples.map Wav.pcm)
      ∧ samples.map Wav.pcm = s.codes search (s.defaults.resolve r) (Text.trim r.text) := by
  obtain ⟨files, es, t, x, ht, hx, hok, rfl⟩ := h
  have hstart : (s.start search files).OnCourse ⟨fun _ => True, True⟩ fun _ => none :=
    Service.onCourse_start s search trivial
  have hl : (s.start search files).LoadSound := Service.loadSound_new _ _
  -- Anything may happen to the service: its files may change and its gate may close.
  have hrun := hstart.run hl es fun e _ => by cases e <;> trivial
  obtain ⟨order, ht', hcourse⟩ := hrun.phases t _ hx
  obtain rfl : order = .speak r := Option.some.inj (ht'.symm.trans ht)
  obtain ⟨m, hm, hspeech⟩ := Ended.speech_of_status hcourse hok
  have hcodes := (hrun.loaded m hm).codes_eq (Text.trim r.text) (s.defaults.resolve r)
  refine ⟨(m.clip (Text.trim r.text) (s.defaults.resolve r)).sampleRate,
    (m.clip (Text.trim r.text) (s.defaults.resolve r)).samples, ?_, hcodes⟩
  rw [hspeech, Http.speech, LoadedModel.file]

/-- The tokens allowed do not **cut** the text of a request. -/
def Uncut (s : Settings) (r : Request) : Prop :=
  (Text.trim r.text).length ≤ (s.defaults.resolve r).maxTokens

/-- The body of an answer is **in blocks**. -/
structure InBlocks (s : Settings) (search : DeviceSearch) (r : Request) (body : List UInt8) :
    Prop where
  /-- Its samples are the blocks of the first characters, in order. -/
  decoded : Wav.codes? body = some
    (((Text.trim r.text).toList.take (s.defaults.resolve r).maxTokens).flatMap
      (s.block search (s.defaults.resolve r).voice (s.defaults.resolve r).cfgScale))
  /-- A reader of files finds the same samples, where the sizes fit a header. -/
  read : ∀ codes, Wav.codes? body = some codes → ∃ rate, body = Wav.file 1 rate codes ∧
    (rate * 2 < 4294967296 → 68 + 2 * codes.length < 4294967296 →
      Wav.read? body = some ⟨1, rate, 16, codes⟩)
  /-- All blocks have one size. -/
  size_eq : ∀ c, (s.block search (s.defaults.resolve r).voice (s.defaults.resolve r).cfgScale
    c).length = max s.synthetic.samplesPerToken 1
  length_eq : ∀ codes, Wav.codes? body = some codes → codes.length
    = min (Text.trim r.text).length (s.defaults.resolve r).maxTokens
      * max s.synthetic.samplesPerToken 1
  /-- With more tokens allowed, the samples only go on. -/
  raised : ∀ q other, s.Answered search q other → Text.trim q.text = Text.trim r.text →
    (s.defaults.resolve r).Alike (s.defaults.resolve q) →
      (s.defaults.resolve r).maxTokens ≤ (s.defaults.resolve q).maxTokens →
        ∀ x y, Wav.codes? body = some x → Wav.codes? other = some y → x <+: y
  /-- A text that is made of two has the samples of the two, unless it is trimmed or cut. -/
  appended : ∀ a b front back, s.Answered search a front → s.Answered search b back →
    r.text = a.text ++ b.text → (∀ q ∈ [a, b, r], Text.trim q.text = q.text ∧ s.Uncut q
      ∧ (s.defaults.resolve r).Alike (s.defaults.resolve q)) →
        ∀ x y, Wav.codes? front = some x → Wav.codes? back = some y →
          Wav.codes? body = some (x ++ y)

theorem Answered.decoded {r : Request} {body : List UInt8} (h : s.Answered search r body) :
    Wav.codes? body = some (s.codes search (s.defaults.resolve r) (Text.trim r.text)) := by
  obtain ⟨rate, samples, rfl, hsamples⟩ := h.exists_file
  rw [Wav.codes?_file, hsamples]

/-- **In blocks.** Whatever the settings and the devices are, and whatever the history: a body that
a service answers with is in blocks. -/
theorem inBlocks_of_answered {r : Request} {body : List UInt8} (h : s.Answered search r body) :
    s.InBlocks search r body where
  decoded := h.decoded
  read := by
    intro codes hcodes
    obtain ⟨rate, samples, rfl, -⟩ := h.exists_file
    obtain rfl : samples.map Wav.pcm = codes :=
      Option.some.inj ((Wav.codes?_file rate samples).symm.trans hcodes)
    refine ⟨rate, rfl, fun hrate hsize => ?_⟩
    have hbytes : rate * 2 * 1 < 4294967296 := by rwa [Nat.mul_one]
    exact Wav.read?_file (by decide) (by decide) hbytes hsize (Wav.map_pcm_bounded samples)
  size_eq := Tone.length_coded _ _ _ _
  length_eq := by
    intro codes hcodes
    obtain rfl := Option.some.inj (h.decoded.symm.trans hcodes)
    rw [codes, Parameters.length_codes, String.length_toList]
  raised := by
    intro q other hq htext halike hle x y hx hy
    obtain rfl := Option.some.inj (h.decoded.symm.trans hx)
    obtain rfl := Option.some.inj (hq.decoded.symm.trans hy)
    rw [htext]
    exact Parameters.prefix_codes _ _ _ _ halike hle
  appended := by
    intro a b front back ha hb htext hall x y hx hy
    obtain rfl := Option.some.inj (ha.decoded.symm.trans hx)
    obtain rfl := Option.some.inj (hb.decoded.symm.trans hy)
    -- None of the three texts is cut, so that each is said in full.
    have hfull (q : Request) (hq : q ∈ [a, b, r]) : s.codes search (s.defaults.resolve q)
        (Text.trim q.text) = q.text.toList.flatMap
          (s.block search (s.defaults.resolve r).voice (s.defaults.resolve r).cfgScale) := by
      obtain ⟨htrim, huncut, halike⟩ := hall q hq
      rw [Uncut, htrim, ← String.length_toList] at huncut
      rw [codes, htrim, Parameters.codes_of_le _ _ _ _ halike huncut, block]
    rw [h.decoded, hfull a (by simp), hfull b (by simp), hfull r (by simp), htext,
      String.toList_append, List.flatMap_append]

/-- A service without settings and without files answers a request: it loads a model of the hub, and
says two characters of 960 samples each. -/
theorem inBlocks_of_answered_hub : ∃ body codes, (ofRaw {}).Answered {} { text := "hi" } body
    ∧ Wav.codes? body = some codes ∧ codes.length = 2 * 960 := by
  let es : List (ServiceEvent ((ofRaw {}).backend {})) :=
    [.request 0 { text := "hi" }, .advance 0, .advance 0, .answer 0, .answer 0, .advance 0,
      .answer 0]
  have hstatus : (((((ofRaw {}).start {} {}).run es).phase? 0).bind Phase.ending?).map
      (fun x => (ofEnding Wav.encoder x).status) = some 200 := by decide +kernel
  obtain ⟨x, hx, hok⟩ := Option.map_eq_some_iff.mp hstatus
  obtain ⟨p, hp, hend⟩ := Option.bind_eq_some_iff.mp hx
  obtain rfl : p = .ended x := by
    cases p with
    | ended y => rw [← Option.some.inj hend]
    | _ => exact nomatch hend
  have h : (ofRaw {}).Answered {} { text := "hi" } (ofEnding Wav.encoder x).body :=
    ⟨{}, es, 0, x, rfl, hp, hok, rfl⟩
  have hblocks := inBlocks_of_answered h
  exact ⟨_, _, h, hblocks.decoded, (hblocks.length_eq _ hblocks.decoded).trans (by decide)⟩

end Settings

end SpeechService
