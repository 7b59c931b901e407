import Mathlib.Order.Bounds.Basic
import SpeechService.Proofs.Binary.Signed
import SpeechService.Proofs.Tensor.Representation

/-!
# Numbers in short precision

A tensor of the short precision keeps the upper 16 bits of every number. On codes this is rounding
down to a multiple of `2 ^ 16`, and since the codes count the magnitudes, it is rounding towards
zero: what is stored is the greatest short magnitude that is not above the given one
(`Binary.isGreatest_truncated`). The sign and the order of values stay as they are, and a normal
number loses less than one part in `2 ^ 7` (`Binary.lost_truncated_lt`).

A number is **truncated well** when it also stays in its class: finite, infinite, or not a number.
Infinity is the least code of its upper half, so that no finite number becomes infinite. But a
pattern that is not a number and says so in its lower half only turns into an infinity
(`Binary.truncated_of_looksInfinite`). `Tensor.new_bf16_truncates` says of every tensor that all its
numbers are truncated well, but for these.
-/

namespace SpeechService

open SpeechService.Binary (Format)

namespace Binary

/-! ### Classes -/

section Classes

variable {f : Format}

/-- An infinity. -/
def isInfinite (x : Binary f) : Bool := x.code = f.infinity

/-- A finite number of full precision: its exponent field is not empty. -/
def IsNormal (x : Binary f) : Prop := x.isFinite = true ∧ f.binade ≤ x.code

theorem isInfinite_iff {x : Binary f} : x.isInfinite = true ↔ x.code = f.infinity :=
  decide_eq_true_iff

theorem isNaN_iff {x : Binary f} : x.isNaN = true ↔ f.infinity < x.code := decide_eq_true_iff

theorem isFinite_iff {x : Binary f} : x.isFinite = true ↔ x.code < f.infinity :=
  decide_eq_true_iff

end Classes

variable {x y : Single}

/-- The lower 16 bits are clear. -/
def IsShort (x : Single) : Prop := x.bits % 65536 = 0

/-- Not a number, though the upper 16 bits are those of an infinity. -/
def LooksInfinite (x : Single) : Prop :=
  x.isNaN = true ∧ x.code / 65536 = Format.infinity .single / 65536

/-- The code of infinity has a clear lower half, and so has the first code of every binade. -/
private theorem halves : Format.infinity .single = 32640 * 65536
    ∧ Format.binade .single = 128 * 65536 ∧ Format.codes .single = 32768 * 65536 := ⟨rfl, rfl, rfl⟩

theorem isShort_iff : x.IsShort ↔ x.code % 65536 = 0 := by
  obtain ⟨-, -, hcodes⟩ := halves
  rw [IsShort, bits, hcodes]
  split <;> omega

/-! ### Truncating -/

theorem truncated_code (x : Single) : x.truncated.code = x.code - x.code % 65536 := rfl

theorem isShort_truncated (x : Single) : x.truncated.IsShort := x.bits_truncated_mod

theorem isFinite_truncated (x : Single) : x.truncated.isFinite = x.isFinite := by
  obtain ⟨hinfinity, -⟩ := halves
  rw [Bool.eq_iff_iff, isFinite_iff, isFinite_iff, truncated_code, hinfinity]
  omega

/-- What is not a number and looks infinite becomes infinite. -/
theorem truncated_of_looksInfinite (h : x.LooksInfinite) :
    x.truncated = infinite .single x.negative := by
  obtain ⟨hinfinity, -⟩ := halves
  have hcode : x.code - x.code % 65536 = Format.infinity .single := by
    obtain ⟨-, hhalf⟩ := h
    rw [hinfinity] at hhalf ⊢
    omega
  exact Binary.mk.injEq .. ▸ ⟨rfl, hcode⟩

theorem isNaN_truncated (h : ¬x.LooksInfinite) : x.truncated.isNaN = x.isNaN := by
  obtain ⟨hinfinity, -⟩ := halves
  rw [LooksInfinite, isNaN_iff, hinfinity] at h
  rw [Bool.eq_iff_iff, isNaN_iff, isNaN_iff, truncated_code, hinfinity]
  omega

theorem isInfinite_truncated (h : ¬x.LooksInfinite) : x.truncated.isInfinite = x.isInfinite := by
  obtain ⟨hinfinity, -⟩ := halves
  rw [LooksInfinite, isNaN_iff, hinfinity] at h
  rw [Bool.eq_iff_iff, isInfinite_iff, isInfinite_iff, truncated_code, hinfinity]
  omega

/-- The **short magnitudes** up to a number. -/
def shortBelow (x : Single) : Set ℚ :=
  {m | ∃ z : Single, z.isFinite = true ∧ z.IsShort ∧ m = z.magnitude ∧ m ≤ x.magnitude}

/-- **Towards zero.** Greater codes stand for greater magnitudes, so that the greatest code with a
clear lower half has the greatest short magnitude. -/
theorem isGreatest_truncated (h : x.isFinite = true) :
    IsGreatest x.shortBelow x.truncated.magnitude := by
  constructor
  · refine ⟨x.truncated, by rw [isFinite_truncated, h], x.isShort_truncated, rfl, ?_⟩
    exact magnitude_le_iff.mpr (Nat.sub_le _ _)
  -- A short code below a code is below it also with the lower half clear.
  · rintro _ ⟨z, -, hshort, rfl, hle⟩
    have hcode := magnitude_le_iff.mp hle
    rw [isShort_iff] at hshort
    rw [magnitude_le_iff, truncated_code]
    omega

/-- In a code that fills a binade, the lower half counts for less than one part in 128. -/
private theorem units_lt_of_binade_le {code : Nat} (h : Format.binade .single ≤ code) :
    128 * Format.units .single code
      < Format.units .single code + 128 * Format.units .single (code - code % 65536) := by
  obtain ⟨-, hbinade, -⟩ := halves
  obtain ⟨s, q, rfl, hq, hs⟩ := Format.exists_steps .single code
  -- A normal code fills its binade, and the lower half lies inside of it.
  have hfull : Format.binade .single ≤ q := by
    rcases hs with rfl | hs
    · rwa [Nat.zero_mul, Nat.zero_add] at h
    · exact hs
  have hmod : (s * Format.binade .single + q) % 65536 = q % 65536 := by
    rw [hbinade, ← Nat.mul_assoc, Nat.mul_add_mod_self_right]
  have hcut : s * Format.binade .single + q - q % 65536
      = s * Format.binade .single + (q - q % 65536) := Nat.add_sub_assoc (Nat.mod_le _ _) _
  rw [hmod, hcut, Format.units_add .single hq.le hs, Format.units_add .single (by omega) (by omega),
    ← Nat.mul_assoc, ← Nat.mul_assoc, ← Nat.add_mul]
  exact Nat.mul_lt_mul_of_pos_right (by omega) (Nat.two_pow_pos s)

/-- **What is lost** of a normal number. -/
theorem lost_truncated_lt (h : x.IsNormal) :
    x.magnitude - x.truncated.magnitude < x.magnitude / 2 ^ 7 := by
  have hunits : (128 * x.units : ℚ) < x.units + 128 * x.truncated.units := by
    exact_mod_cast units_lt_of_binade_le h.2
  have hdepth : (0 : ℚ) < (Nat.pow 2 (Format.depth .single) : Nat) :=
    Nat.cast_pos.mpr (Format.pow_depth_pos _)
  rw [← units_div_eq_magnitude, ← units_div_eq_magnitude, ← sub_div, div_right_comm]
  refine div_lt_div_of_pos_right ?_ hdepth
  linarith

/-- The order of values stays. -/
theorem value_truncated_le (h : x.value ≤ y.value) : x.truncated.value ≤ y.truncated.value := by
  have hmono : Monotone fun code => Format.value .single (code - code % 65536) := by
    intro a b hab
    exact (Format.value_strictMono .single).monotone (by omega)
  have hzero : Format.value .single (0 - 0 % 65536) = 0 := by
    rw [Nat.zero_mod, Nat.sub_zero, Format.value_zero]
  have hle := signed_le_signed hmono hzero h
  exact hle

/-- A number `x` is **truncated well** to `y`. -/
structure TruncatedWell (x y : Single) : Prop where
  negative_eq : y.negative = x.negative
  isNaN_iff : y.isNaN = true ↔ x.isNaN = true
  isInfinite_iff : y.isInfinite = true ↔ x.isInfinite = true
  isFinite_iff : y.isFinite = true ↔ x.isFinite = true
  /-- The stored magnitude is the greatest short one that is not above the given one. -/
  greatest : x.isFinite = true → IsGreatest x.shortBelow y.magnitude
  magnitude_le : x.isFinite = true → y.magnitude ≤ x.magnitude
  /-- A number of full precision loses less than one part in 128. -/
  lost_lt : x.IsNormal → x.magnitude - y.magnitude < x.magnitude / 2 ^ 7

/-- Only what looks infinite is not truncated well. -/
theorem truncatedWell_iff : TruncatedWell x x.truncated ↔ ¬x.LooksInfinite := by
  constructor
  · intro hwell h
    have hnumber := hwell.isNaN_iff.mpr h.1
    rw [truncated_of_looksInfinite h] at hnumber
    exact absurd (Binary.isNaN_iff.mp hnumber) (Nat.lt_irrefl _)
  · intro h
    exact {
      negative_eq := rfl
      isNaN_iff := by rw [isNaN_truncated h]
      isInfinite_iff := by rw [isInfinite_truncated h]
      isFinite_iff := by rw [isFinite_truncated]
      greatest := isGreatest_truncated
      magnitude_le := fun _ => magnitude_le_iff.mpr (Nat.sub_le _ _)
      lost_lt := lost_truncated_lt }

end Binary

/-! ### Tensors -/

namespace Tensor

open Binary (TruncatedWell)

/-- What a tensor stores of the given numbers: their **truncation**. -/
structure Truncation (data : List Single) (t : Tensor) : Prop where
  length_eq : t.data.length = data.length
  /-- Every number is truncated well, unless it is none and looks infinite. -/
  well_iff : ∀ p ∈ data.zip t.data, TruncatedWell p.1 p.2 ↔ ¬p.1.LooksInfinite
  /-- What looks infinite becomes infinite. -/
  infinite : ∀ p ∈ data.zip t.data, p.1.LooksInfinite → p.2 = .infinite .single p.1.negative
  /-- Truncating is monotone. -/
  monotone : ∀ p ∈ data.zip t.data, ∀ q ∈ data.zip t.data,
    p.1.isFinite = true → q.1.isFinite = true → p.1.value ≤ q.1.value → p.2.value ≤ q.2.value

/-- **Short precision.** Any numbers, in any shape that fits them and on any device. -/
theorem new_bf16_truncates (data : List Single) {shape : List Nat} (h : shape.prod = data.length)
    (device : Device) :
    ∃ t, Tensor.new data shape device .bf16 = .ok t ∧ Truncation data t := by
  have hzip : data.zip (data.map Precision.bf16.store)
      = data.map fun x => (x, Precision.bf16.store x) := by
    simpa using List.zip_map' (f := id) (g := Precision.bf16.store) (l := data)
  have hsize : shapeSize shape = .ofNat data.length := by rw [shapeSize_eq_ofNat_prod, h]
  refine ⟨_, new_eq_ok_iff.mpr ⟨hsize, rfl⟩, List.length_map _, ?_, ?_, ?_⟩
  all_goals simp only [hzip, List.forall_mem_map]
  · exact fun x _ => Binary.truncatedWell_iff
  · exact fun x _ => Binary.truncated_of_looksInfinite
  · exact fun x _ y _ _ _ => Binary.value_truncated_le

/-- One tenth, a pattern that is not a number and says so in both halves, minus infinity, and the
least positive number, in two rows. -/
theorem new_bf16_truncates_two_rows :
    let data : List Single := [0x3DCCCCCD, 0xFFC00001, 0xFF800000, 1].map (.ofBits .single)
    [2, 2].prod = data.length ∧ ∃ t, Tensor.new data [2, 2] .cpu .bf16 = .ok t ∧ Truncation data t
      ∧ t.data.map Binary.bits = [0x3DCC0000, 0xFFC00000, 0xFF800000, 0] := by
  intro data
  have hshape : [2, 2].prod = data.length := rfl
  obtain ⟨t, ht, htruncation⟩ := new_bf16_truncates data hshape .cpu
  have hdata : t.data = data.map Binary.truncated :=
    congrArg Tensor.data (new_eq_ok_iff.mp ht).2
  refine ⟨hshape, t, ht, htruncation, ?_⟩
  rw [hdata]
  decide

/-- A pattern that is not a number, and says so in its last bit only, is **not truncated well**: the
tensor holds an infinity instead. -/
theorem not_truncatedWell_last_bit :
    Tensor.new [.ofBits .single 0x7F800001] [1] .cpu .bf16
        = .ok ⟨[.infinite .single false], [1], .cpu, .bf16⟩
      ∧ ¬TruncatedWell (.ofBits .single 0x7F800001) (.infinite .single false) :=
  ⟨rfl, fun h => absurd (h.isNaN_iff.mpr (by decide)) (by decide)⟩

end Tensor

end SpeechService
