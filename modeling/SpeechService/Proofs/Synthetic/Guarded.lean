import Mathlib.Algebra.Order.Field.Rat
import Mathlib.Tactic.Positivity
import SpeechService.Proofs.Synthetic.Blocks
import SpeechService.Synthetic.Guarded

/-!
# Rendering is safe

Guarded rendering never fails, unless no buffer has room for the samples, and comes to the same
samples as rendering without guards (`Tone.Guarded.render_eq`). What carries this is that a turn is
taken only if there are tokens, and that a position is in a fade only if the fades of its block are
not empty.

`SyntheticSettings.renders_safely` says this of every engine that is loaded with any settings, and
of all inputs, and with it how loud the envelope is at every position.
-/

namespace SpeechService

namespace Tone

variable {size i : Nat}

/-! ### The envelope -/

/-- The exact value of a fraction. -/
def Fraction.value (q : Fraction) : ℚ := q.num / q.den

/-- There are fades in a block of two samples or more. -/
theorem fade_pos_iff : 0 < fade size ↔ 2 ≤ size := by
  rw [fade, maxFade]
  omega

/-- Fades do not overlap. -/
theorem two_mul_fade_le (size : Nat) : 2 * fade size ≤ size := by
  rw [fade]
  omega

/-- How a block is divided: it fades in, is at the full amplitude, and fades out. -/
theorem envelope_cases (h : i < size) :
    (i < fade size ∧ envelope size i = ⟨i, fade size⟩)
      ∨ (fade size ≤ i ∧ i < size - fade size ∧ envelope size i = ⟨1, 1⟩)
      ∨ (size - fade size ≤ i ∧ size - i ≤ fade size ∧ 0 < fade size
        ∧ envelope size i = ⟨size - i, fade size⟩) := by
  rw [envelope]
  split
  case isTrue hin => exact .inl ⟨hin, rfl⟩
  case isFalse hin =>
    split
    case isTrue hout => exact .inr (.inr ⟨hout, by omega, by omega, rfl⟩)
    case isFalse hout => exact .inr (.inl ⟨not_lt.mp hin, not_le.mp hout, rfl⟩)

theorem Fraction.value_mem_of_le {num den : Nat} (hden : 0 < den) (hle : num ≤ den) :
    0 ≤ (⟨num, den⟩ : Fraction).value ∧ (⟨num, den⟩ : Fraction).value ≤ 1 := by
  have hden' : (0 : ℚ) < den := Nat.cast_pos.mpr hden
  refine ⟨by rw [value]; positivity, (div_le_one hden').mpr ?_⟩
  exact Nat.cast_le.mpr hle

/-- The envelope of a block of the given size. -/
structure Envelops (size : Nat) : Prop where
  /-- It is a fraction from zero to one everywhere. -/
  bounds : ∀ i < size, 0 < (envelope size i).den
    ∧ 0 ≤ (envelope size i).value ∧ (envelope size i).value ≤ 1
  /-- Unless the block is too short for fades, it begins with silence. -/
  first : 2 ≤ size → (envelope size 0).value = 0
  /-- Between the fades it is one. -/
  between : ∀ i, fade size ≤ i → i < size - fade size → (envelope size i).value = 1

theorem envelops (size : Nat) : Envelops size where
  bounds := by
    intro i hi
    obtain ⟨hin, heq⟩ | ⟨-, -, heq⟩ | ⟨-, hle, hpos, heq⟩ := envelope_cases hi
    · have hpos : 0 < fade size := Nat.zero_lt_of_lt hin
      rw [heq]
      exact ⟨hpos, Fraction.value_mem_of_le hpos hin.le⟩
    · rw [heq]
      exact ⟨Nat.one_pos, Fraction.value_mem_of_le Nat.one_pos le_rfl⟩
    · rw [heq]
      exact ⟨hpos, Fraction.value_mem_of_le hpos hle⟩
  first := by
    intro hsize
    rw [envelope, if_pos (fade_pos_iff.mpr hsize), Fraction.value, Nat.cast_zero, zero_div]
  between := by
    intro i hin hout
    rw [envelope, if_neg (not_lt.mpr hin), if_neg (not_le.mpr hout), Fraction.value, Nat.cast_one,
      div_one]

namespace Guarded

/-! ### Nothing is undefined -/

/-- **Loops.** When each turn leads from one stage to the next, all of them lead from the first
stage to the last. -/
theorem loop_eq {α : Type} {turn : Nat → α → Except Undefined α} (stage : Nat → α) {n : Nat}
    (h : ∀ i < n, turn i (stage i) = .ok (stage (i + 1))) :
    loop turn n (stage 0) = .ok (stage n) := by
  induction n with
  | zero => rfl
  | succ n ih =>
    rw [loop, ih fun i hi => h i (Nat.lt_succ_of_lt hi)]
    exact h n (Nat.lt_succ_self n)

theorem remainder_eq {n d : Nat} (h : d ≠ 0) : remainder n d = .ok (n % d) := if_neg h

theorem difference_eq {n m : Nat} (h : m ≤ n) : difference n m = .ok (n - m) :=
  if_neg (not_lt.mpr h)

theorem fraction_eq {num den : Nat} (h : 0 < den) : fraction num den = .ok ⟨num, den⟩ :=
  if_neg h.ne'

theorem item_eq {α : Type} {xs : List α} {place : Nat} {x : α} (h : xs[place]? = some x) :
    item xs place = .ok x := by
  rw [item, h]

/-- A position in a fade is one of a block with fades. -/
theorem envelope_eq (h : i < size) : envelope size i = .ok (Tone.envelope size i) := by
  have hfade := two_mul_fade_le size
  have hback : difference size (fade size) = .ok (size - fade size) := difference_eq (by omega)
  have hleft : difference size i = .ok (size - i) := difference_eq h.le
  rw [envelope, hback, hleft]
  obtain ⟨hin, heq⟩ | ⟨hin, hout, heq⟩ | ⟨hout, -, hpos, heq⟩ := envelope_cases h
  · rw [if_pos hin, heq, fraction_eq (Nat.zero_lt_of_lt hin)]
  · rw [if_neg (not_lt.mpr hin), heq]
    exact if_neg (not_le.mpr hout)
  · rw [if_neg (by omega), heq]
    exact (if_pos hout).trans (fraction_eq hpos)

theorem sample_eq (h : i < size) (angle amplitude : Float32) :
    sample size angle amplitude i = .ok (Tone.sample size angle amplitude i) := by
  rw [sample, envelope_eq h]
  rfl

/-- **One tone.** After `i` steps the buffer holds the first `i` samples of the tone. -/
theorem block_eq (angle amplitude : Float32) (samples : List Single) :
    block size angle amplitude samples
      = .ok (samples ++ (List.range size).map (Tone.sample size angle amplitude)) := by
  let stage (i : Nat) : List Single :=
    samples ++ (List.range i).map (Tone.sample size angle amplitude)
  have hstart : stage 0 = samples := List.append_nil samples
  have hloop : block size angle amplitude (stage 0) = .ok (stage size) := by
    refine loop_eq stage fun i hi => ?_
    have hnext : stage (i + 1) = stage i ++ [Tone.sample size angle amplitude i] := by
      simp only [stage, List.range_succ, List.map_append, List.map_singleton, List.append_assoc]
    rw [sample_eq hi, hnext]
    rfl
  rwa [hstart] at hloop

/-- **One turn.** There is a token for it, as there is one at all. -/
theorem turn_eq (pitch amplitude : Single) {tokens : List Single} (h : tokens ≠ []) (t : Nat)
    (samples : List Single) :
    turn size pitch amplitude tokens t samples
      = .ok (samples ++ samplesAt size pitch amplitude tokens t) := by
  have hlength : tokens.length ≠ 0 := fun hzero => h (List.length_eq_zero_iff.mp hzero)
  have hplace : t % tokens.length < tokens.length := Nat.mod_lt _ (Nat.pos_of_ne_zero hlength)
  have htoken := List.getElem?_eq_getElem hplace
  generalize tokens[t % tokens.length] = token at htoken
  have hblock : samplesAt size pitch amplitude tokens t
      = (List.range size).map (Tone.sample size (angle pitch token) amplitude.toFloat32) := by
    rw [samplesAt, tokenAt?, htoken]
    rfl
  rw [hblock, ← block_eq, turn, remainder_eq hlength]
  show (item tokens (t % tokens.length)).bind _ = _
  rw [item_eq htoken]
  rfl

/-- **All turns.** -/
theorem render_eq (size : Nat) (pitch amplitude : Single) {maxTokens : Nat} {tokens : List Single}
    (h : HasRoom (turns maxTokens tokens * size)) :
    render size pitch amplitude maxTokens tokens
      = .ok (Tone.render size pitch amplitude maxTokens tokens) := by
  have hbuffer : buffer (turns maxTokens tokens * size) = .ok [] := if_pos h
  rw [render, hbuffer]
  refine loop_eq (fun t => (List.range t).flatMap (samplesAt size pitch amplitude tokens))
    fun t ht => ?_
  -- Without tokens there are no turns.
  have htokens : tokens ≠ [] := by
    rintro rfl
    exact absurd ht (Nat.not_lt_zero t)
  rw [turn_eq pitch amplitude htokens, List.range_succ, List.flatMap_append,
    List.flatMap_singleton]

end Guarded

theorem length_render (size : Nat) (pitch amplitude : Single) (maxTokens : Nat)
    (tokens : List Single) :
    (render size pitch amplitude maxTokens tokens).length = turns maxTokens tokens * size := by
  have hsize (token : Single) := length_block size pitch amplitude token
  simp only [render_eq, turns_eq, List.length_flatMap, hsize, List.map_const',
    List.sum_replicate_nat, List.length_take, Nat.min_comm]

end Tone

/-! ### Engines -/

namespace SyntheticEngine

open Tone (Guarded.render Guarded.HasRoom)

/-- How many samples are expected for some tokens. -/
def sampleCount (e : SyntheticEngine) (options : GenerateOptions) (tokens : List Single) : Nat :=
  Tone.turns options.maxNewTokens tokens * e.samplesPerToken

/-- An engine **renders safely** what is asked of it for some tokens. -/
structure RendersSafely (e : SyntheticEngine) (inputs : Inputs) (options : GenerateOptions)
    (tokens : List Single) : Prop where
  /-- Whatever the pitch and the amplitude are, no operation is undefined. -/
  guarded : ∀ pitch amplitude,
    Guarded.render e.samplesPerToken pitch amplitude options.maxNewTokens tokens
      = .ok (Tone.render e.samplesPerToken pitch amplitude options.maxNewTokens tokens)
  envelops : Tone.Envelops e.samplesPerToken
  /-- As many samples as expected are rendered, and the tensor of one row that they make is what is
  generated. -/
  generated : ∃ samples t,
    Guarded.render e.samplesPerToken (pitch inputs) (Tone.amplitude options.cfgScale)
      options.maxNewTokens tokens = .ok samples
    ∧ samples.length = e.sampleCount options tokens
    ∧ Tensor.new samples [1, e.sampleCount options tokens] e.device e.precision = .ok t
    ∧ e.generate inputs options = .ok [.tensor t]

variable {e : SyntheticEngine} {inputs : Inputs} {options : GenerateOptions} {tokens : Tensor}

/-- An engine that was prepared and has its tokens at hand generates one tensor of what is
rendered. -/
theorem generate_eq (hmode : e.inferenceMode = true) (hgradients : options.gradients = false)
    (hinput : inputs.get? "input_ids" = some (.tensor tokens))
    (hdevice : tokens.device = e.device) :
    e.generate inputs options = (Tensor.new (Tone.render e.samplesPerToken (pitch inputs)
      (Tone.amplitude options.cfgScale) options.maxNewTokens tokens.data)
      [1, e.sampleCount options tokens.data] e.device e.precision).map fun t => [.tensor t] := by
  have hready : ¬(options.gradients = true ∨ ¬e.inferenceMode = true) := by
    simp [hgradients, hmode]
  rw [generate, if_neg hready, hinput]
  simp only [Option.bind_some, Input.tensor?, hdevice, ne_eq, not_true_eq_false, if_false,
    Tone.length_render, sampleCount]

theorem rendersSafely (hmode : e.inferenceMode = true) (hgradients : options.gradients = false)
    (hinput : inputs.get? "input_ids" = some (.tensor tokens)) (hdevice : tokens.device = e.device)
    (hroom : Guarded.HasRoom (e.sampleCount options tokens.data)) :
    e.RendersSafely inputs options tokens.data := by
  have hguarded (pitch amplitude : Single) :=
    Tone.Guarded.render_eq e.samplesPerToken pitch amplitude hroom
  have hgenerate := generate_eq hmode hgradients hinput hdevice
  have hlength := Tone.length_render e.samplesPerToken (pitch inputs)
    (Tone.amplitude options.cfgScale) options.maxNewTokens tokens.data
  have hsize : shapeSize [1, e.sampleCount options tokens.data] = .ofNat (Tone.render
      e.samplesPerToken (pitch inputs) (Tone.amplitude options.cfgScale) options.maxNewTokens
      tokens.data).length := by
    rw [hlength]
    exact shapeSize_row _
  have hnew := Tensor.new_eq_ok_iff.mpr ⟨hsize, Eq.refl
    (Tensor.mk _ [1, e.sampleCount options tokens.data] e.device e.precision)⟩
  rw [hnew] at hgenerate
  exact ⟨hguarded, Tone.envelops _, _, _, hguarded _ _, hlength, hnew, hgenerate⟩

end SyntheticEngine

namespace SyntheticSettings

/-- **Rendering is safe** in every engine that is loaded with some settings and prepared. Its blocks
have the size that is set, but at least one sample. -/
theorem renders_safely {s : SyntheticSettings} {accelerated : Bool} {files : Files}
    {modelId : String} {device : Device} {precision : Precision} {e : SyntheticEngine}
    (hload : s.loadEngine accelerated files modelId device precision = .ok e) {inputs : Inputs}
    {tokens : Tensor} (hinput : inputs.get? "input_ids" = some (.tensor tokens))
    (hdevice : tokens.device = device) {options : GenerateOptions}
    (hgradients : options.gradients = false)
    (hroom : Tone.Guarded.HasRoom
      (Tone.turns options.maxNewTokens tokens.data * max s.samplesPerToken 1)) :
    e.prepare.samplesPerToken = max s.samplesPerToken 1
      ∧ e.prepare.RendersSafely inputs options tokens.data := by
  obtain rfl := eq_of_loadEngine hload
  exact ⟨rfl, SyntheticEngine.rendersSafely rfl hgradients hinput hdevice hroom⟩

/-- With a size of zero that is set, two of three tokens are rendered to one sample each. -/
theorem renders_safely_of_size_zero :
    let s : SyntheticSettings := { samplesPerToken := 0 }
    let e : SyntheticEngine := { device := .cpu, precision := .f32, samplesPerToken := 1 }
    let tokens : Tensor := ⟨[0, 0x42C80000, 0x42CA0000].map (.ofBits .single), [3], .cpu, .f32⟩
    let options : GenerateOptions := { cfgScale := .ofBits .double 0, maxNewTokens := 2 }
    s.loadEngine false {} "m" .cpu .f32 = .ok e
      ∧ Inputs.get? [("input_ids", .tensor tokens)] "input_ids" = some (.tensor tokens)
      ∧ Tone.Guarded.HasRoom (Tone.turns options.maxNewTokens tokens.data * max s.samplesPerToken 1)
      ∧ e.prepare.RendersSafely [("input_ids", .tensor tokens)] options tokens.data
      ∧ e.prepare.sampleCount options tokens.data = 2 := by
  intro s e tokens options
  have hload : s.loadEngine false {} "m" .cpu .f32 = .ok e := by decide +kernel
  have hinput : Inputs.get? [("input_ids", .tensor tokens)] "input_ids"
      = some (.tensor tokens) := rfl
  have hgradients : options.gradients = false := rfl
  have hroom : Tone.Guarded.HasRoom
      (Tone.turns options.maxNewTokens tokens.data * max s.samplesPerToken 1) := by decide
  obtain ⟨-, hsafe⟩ := renders_safely hload hinput rfl hgradients hroom
  exact ⟨hload, hinput, hroom, hsafe, rfl⟩

end SyntheticSettings

end SpeechService
