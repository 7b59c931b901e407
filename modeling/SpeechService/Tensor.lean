import SpeechService.Binary.Number
import SpeechService.Device
import SpeechService.Failure
import SpeechService.Json.Value

/-!
# Tensors

A tensor is a list of numbers of 32 bits with a shape, a device and a precision. A tensor of the
short precision keeps the upper 16 bits of every number.
-/

namespace SpeechService

/-- The size of a value with this shape. It is counted in a word of 64 bits, and a product that is
too large for one wraps around. -/
def shapeSize (shape : List Nat) : UInt64 := shape.foldl (fun size d => size * .ofNat d) 1

/-- A shape in brackets. -/
def shapeText (shape : List Nat) : String :=
  "[" ++ String.intercalate ", " (shape.map Text.ofNat) ++ "]"

/-- The message for a shape that does not fit the number of elements. -/
def shapeMismatch (what : String) (shape : List Nat) (size : Nat) : EngineError :=
  .output (what ++ " shape " ++ shapeText shape ++ " does not match " ++ Text.ofNat size
    ++ " elements")

/-- The number with the lower 16 bits cleared. -/
def Binary.truncated (x : Single) : Single :=
  ⟨x.negative, x.code - x.code % 65536, Nat.lt_of_le_of_lt (Nat.sub_le _ _) x.code_lt⟩

/-- A number as a tensor of the given precision stores it. -/
def Precision.store : Precision → Single → Single
  | .f32, x => x
  | .bf16, x => x.truncated

/-- A **tensor**: numbers in row order, their shape, and where and how they are kept. -/
structure Tensor where
  data : List Single
  shape : List Nat
  device : Device
  precision : Precision
deriving DecidableEq, Repr

namespace Tensor

/-- The tensor with the given parts, unless the shape has another size than the data. -/
def new (data : List Single) (shape : List Nat) (device : Device) (precision : Precision) :
    Except EngineError Tensor :=
  if shapeSize shape = .ofNat data.length then
    .ok ⟨data.map precision.store, shape, device, precision⟩
  else .error (shapeMismatch "tensor" shape data.length)

/-- The tensor of one dimension on the processor, in full precision. -/
def ofList (data : List Single) : Tensor := ⟨data, [data.length], .cpu, .f32⟩

/-- The same numbers on another device. -/
def toDevice (t : Tensor) (device : Device) : Tensor := { t with device }

end Tensor

/-- One **input** of an engine. -/
inductive Input where
  /-- Numbers that live on a device. -/
  | tensor (tensor : Tensor)
  /-- Any other value; it is handed over as it is. -/
  | value (value : Json)

namespace Input

/-- Moves a tensor to a device; any other input stays as it is. -/
def toDevice (device : Device) : Input → Input
  | .tensor t => .tensor (t.toDevice device)
  | .value v => .value v

/-- The tensor of an input that is one. -/
def tensor? : Input → Option Tensor
  | .tensor t => some t
  | .value _ => none

end Input

/-- The **inputs** of an engine by name; every name stands once. -/
abbrev Inputs := List (String × Input)

namespace Inputs

/-- The input of a name. -/
def get? (inputs : Inputs) (name : String) : Option Input := inputs.lookup name

/-- The inputs without a name. -/
def remove (inputs : Inputs) (name : String) : Inputs := inputs.filter (·.1 != name)

/-- The inputs with a name set to an input. -/
def set (inputs : Inputs) (name : String) (input : Input) : Inputs :=
  inputs.remove name ++ [(name, input)]

/-- Moves every tensor to a device. -/
def toDevice (inputs : Inputs) (device : Device) : Inputs :=
  inputs.map fun (name, input) => (name, input.toDevice device)

end Inputs

end SpeechService
