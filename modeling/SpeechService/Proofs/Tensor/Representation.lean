import Mathlib.Algebra.BigOperators.Group.List.Basic
import Mathlib.Data.Nat.ModEq
import SpeechService.Tensor

/-!
# How tensors are kept

A tensor is **made** by one of its two constructors and may be moved afterwards, by itself or as an
input of an engine. Whatever was done to it, it is **sound**: its data fit its shape, numbers of the
short precision have no bits in the lower half, and its own parts make the same tensor once more
(`Tensor.Made.sound`). Storing a number twice is storing it once (`Precision.store_store`), and a
move changes neither the data nor the precision, so that soundness is not lost on the way.

Sizes are counted in words of 64 bits. The data are always that few, but the product of a shape need
not be: a shape whose product is too large fits data of another number (`shapeSize_eq_ofNat_iff`).
-/

namespace SpeechService

/-! ### Sizes -/

/-- Wrapping around at every product is wrapping around at the last one. -/
theorem shapeSize_eq_ofNat_prod (shape : List Nat) : shapeSize shape = .ofNat shape.prod := by
  have hfold : ∀ (shape : List Nat) (n : Nat),
      shape.foldl (fun size d => size * .ofNat d) (UInt64.ofNat n) = .ofNat (n * shape.prod) := by
    intro shape
    induction shape with
    | nil => intro n; rw [List.foldl_nil, List.prod_nil, Nat.mul_one]
    | cons d shape ih =>
      intro n
      rw [List.foldl_cons, ← UInt64.ofNat_mul, ih, List.prod_cons, Nat.mul_assoc]
  have h := hfold shape 1
  rwa [Nat.one_mul] at h

/-- A shape has the size of some elements if and only if its product is their number but for a
multiple of `2 ^ 64`. -/
theorem shapeSize_eq_ofNat_iff {shape : List Nat} {n : Nat} :
    shapeSize shape = .ofNat n ↔ shape.prod ≡ n [MOD 2 ^ 64] := by
  rw [shapeSize_eq_ofNat_prod, ← UInt64.toNat_inj, UInt64.toNat_ofNat', UInt64.toNat_ofNat']
  rfl

/-- Where nothing wraps around, a shape has the size of some elements if and only if its product is
their number. -/
theorem shapeSize_eq_ofNat_iff_of_lt {shape : List Nat} {n : Nat} (hshape : shape.prod < 2 ^ 64)
    (hn : n < 2 ^ 64) : shapeSize shape = .ofNat n ↔ shape.prod = n := by
  rw [shapeSize_eq_ofNat_iff, Nat.ModEq, Nat.mod_eq_of_lt hshape, Nat.mod_eq_of_lt hn]

/-! ### Stored numbers -/

theorem Binary.bits_truncated_mod (x : Single) : x.truncated.bits % 65536 = 0 := by
  have hcodes : Binary.Format.codes .single % 65536 = 0 := by decide
  have hcode : x.truncated.code % 65536 = 0 := by
    simp only [truncated]
    omega
  rw [bits, Nat.add_mod, hcode]
  split <;> simp [hcodes]

/-- What is stored is stored as it is. -/
theorem Precision.store_store (p : Precision) (x : Single) : p.store (p.store x) = p.store x := by
  cases p with
  | f32 => rfl
  | bf16 =>
    have hcode : x.truncated.truncated.code = x.truncated.code := by
      simp only [Binary.truncated]
      omega
    exact Binary.mk.injEq .. ▸ ⟨rfl, hcode⟩

namespace Tensor

variable {data : List Single} {shape : List Nat} {device : Device} {precision : Precision}
  {t : Tensor}

/-! ### Making a tensor -/

/-- So many numbers can be counted in a word. No list of numbers in memory is longer. -/
def Counted (data : List Single) : Prop := data.length < 2 ^ 64

instance (data : List Single) : Decidable (Counted data) :=
  inferInstanceAs (Decidable (data.length < 2 ^ 64))

/-- A tensor as it can come to be: one of the constructors **made** it, and it was moved any number
of times. -/
inductive Made : Tensor → Prop
  | new {data : List Single} {shape : List Nat} {device : Device} {precision : Precision}
      {t : Tensor} (hdata : Counted data) (h : Tensor.new data shape device precision = .ok t) :
      Made t
  | ofList {data : List Single} (hdata : Counted data) : Made (Tensor.ofList data)
  | moved {t : Tensor} (h : Made t) (device : Device) : Made (t.toDevice device)

/-- A tensor is made of data whose number is the size of the shape, and stores them. -/
theorem new_eq_ok_iff : Tensor.new data shape device precision = .ok t ↔
    shapeSize shape = .ofNat data.length
      ∧ t = ⟨data.map precision.store, shape, device, precision⟩ := by
  rw [Tensor.new]
  split
  · next h => simp [h, eq_comm]
  · next h => simp [h]

/-- Data of any other number are refused, with the shape and the number in the message. -/
theorem new_eq_error_iff {e : EngineError} : Tensor.new data shape device precision = .error e ↔
    shapeSize shape ≠ .ofNat data.length ∧ e = shapeMismatch "tensor" shape data.length := by
  rw [Tensor.new]
  split
  · next h => simp [h]
  · next h => simp [h, eq_comm]

/-- A **sound** tensor. -/
structure Sound (t : Tensor) : Prop where
  /-- There are as many numbers as the shape has places, unless the places cannot be counted. -/
  fits : t.shape.prod < 2 ^ 64 → t.shape.prod = t.data.length
  /-- In the short precision the lower 16 bits of every number are clear. -/
  short : t.precision = .bf16 → ∀ x ∈ t.data, x.bits % 65536 = 0
  /-- Its parts make the same tensor. -/
  rebuilt : Tensor.new t.data t.shape t.device t.precision = .ok t

/-- What is made of its parts again must have a shape that fits and numbers that are stored. -/
theorem sound_iff (hdata : Counted t.data) : t.Sound ↔
    shapeSize t.shape = .ofNat t.data.length ∧ t.data.map t.precision.store = t.data := by
  constructor
  · intro h
    obtain ⟨hsize, ht⟩ := new_eq_ok_iff.mp h.rebuilt
    exact ⟨hsize, (congrArg Tensor.data ht).symm⟩
  · rintro ⟨hsize, hstored⟩
    refine ⟨fun hlt => (shapeSize_eq_ofNat_iff_of_lt hlt hdata).mp hsize, fun hp x hx => ?_,
      new_eq_ok_iff.mpr ⟨hsize, by rw [hstored]⟩⟩
    rw [← hstored, hp] at hx
    obtain ⟨y, -, rfl⟩ := List.mem_map.mp hx
    exact y.bits_truncated_mod

/-- However a tensor came to be, its numbers can be counted. -/
theorem Made.counted (h : t.Made) : Counted t.data := by
  induction h with
  | new hdata h =>
    obtain ⟨-, rfl⟩ := new_eq_ok_iff.mp h
    rwa [Counted, List.length_map]
  | ofList hdata => exact hdata
  | moved _ _ ih => exact ih

/-- **Every tensor.** By induction on how it came to be: neither the shape nor the stored numbers
depend on the device. -/
theorem Made.sound (h : t.Made) : t.Sound := by
  induction h with
  | @new data shape device precision t hdata h =>
    have hmade := Made.new hdata h
    obtain ⟨hsize, rfl⟩ := new_eq_ok_iff.mp h
    refine (sound_iff hmade.counted).mpr ⟨by rw [List.length_map, hsize], ?_⟩
    rw [List.map_map]
    exact List.map_congr_left fun x _ => precision.store_store x
  | @ofList data hdata =>
    have hsize : shapeSize [data.length] = .ofNat data.length := by
      rw [shapeSize_eq_ofNat_prod, List.prod_singleton]
    exact (sound_iff hdata).mpr ⟨hsize, data.map_id⟩
  | @moved t h device ih =>
    have hdata := h.counted
    exact (sound_iff (t := t.toDevice device) hdata).mpr ((sound_iff hdata).mp ih)

/-- The shape of a tensor has the size of its data. -/
theorem Made.size_eq (h : t.Made) : shapeSize t.shape = .ofNat t.data.length :=
  ((sound_iff h.counted).mp h.sound).1

end Tensor

/-! ### Inputs -/

namespace Input

variable {i : Input} {t : Tensor}

/-- An input as it can come to be: a tensor that was **made** or any other value, moved any number
of times. -/
inductive Made : Input → Prop
  | tensor {t : Tensor} (h : t.Made) : Made (.tensor t)
  | value (v : Json) : Made (.value v)
  | moved {i : Input} (h : Made i) (device : Device) : Made (i.toDevice device)

/-- The tensor of an input was made, however the input was moved. -/
theorem Made.tensor_made (h : i.Made) (ht : i.tensor? = some t) : t.Made := by
  induction h generalizing t with
  | tensor h => exact Option.some.inj ht ▸ h
  | value => exact nomatch ht
  | @moved i _ device ih =>
    cases i with
    | tensor u => exact Option.some.inj ht ▸ (ih rfl).moved device
    | value => exact nomatch ht

end Input

namespace Tensor

/-- How tensors are represented. -/
structure Representation : Prop where
  /-- Every tensor is sound, whatever it went through. -/
  sound : ∀ t : Tensor, t.Made → t.Sound
  /-- So is every tensor that went through inputs. -/
  input : ∀ (i : Input) (t : Tensor), i.Made → i.tensor? = some t → t.Made ∧ t.Sound
  /-- A move changes the device and nothing else. -/
  moved : ∀ (t : Tensor) (device : Device),
    t.toDevice device = ⟨t.data, t.shape, device, t.precision⟩
  /-- An input that is a tensor is moved like one, and any other stays as it is. -/
  movedInput : ∀ (i : Input) (device : Device), i.toDevice device =
    match i.tensor? with
    | some t => .tensor (t.toDevice device)
    | none => i
  /-- A tensor is refused exactly when its shape has another product than the number of its data,
  as long as both can be counted. -/
  refused : ∀ data shape device precision, Counted data → shape.prod < 2 ^ 64 →
    ((∃ e, Tensor.new data shape device precision = .error e) ↔ shape.prod ≠ data.length)
  /-- What is refused is an output that makes no sense. -/
  told : ∀ data shape device precision e, Tensor.new data shape device precision = .error e →
    e = .output ("tensor shape " ++ shapeText shape ++ " does not match " ++ Text.ofNat data.length
      ++ " elements")

/-- **Tensors**, of any data, shapes, devices and precisions. -/
theorem tensors_fit_shapes : Representation where
  sound _ h := h.sound
  input _ _ h ht := ⟨h.tensor_made ht, (h.tensor_made ht).sound⟩
  moved _ _ := rfl
  movedInput i _ := by cases i <;> rfl
  refused data shape device precision hdata hshape := by
    simp only [new_eq_error_iff, exists_and_left, exists_eq, and_true, ne_eq,
      shapeSize_eq_ofNat_iff_of_lt hshape hdata]
  told data shape device precision e h := by
    rw [(new_eq_error_iff.mp h).2, shapeMismatch]
    rfl

/-- A scalar has one number, and a shape with a dimension of zero has none. -/
example (x : Single) : (Tensor.new [x] [] .cpu .bf16).isOk ∧ (Tensor.new [] [3, 0] .cpu .f32).isOk ∧
    (Tensor.new [] [] .cpu .f32).isOk = false := ⟨rfl, rfl, rfl⟩

end Tensor

end SpeechService
