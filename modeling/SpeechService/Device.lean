import SpeechService.Text.Blank
import SpeechService.Text.Integer
import SpeechService.Text.Lowercase

/-!
# Devices

Generation runs on the processor or on an accelerated device. An operator states a **preference**
by name; the preference is settled once it is known whether an accelerated device is there. Names
are read in any case and with blanks around them, and every device and preference has one name
that `DevicePreference.parse` reads back.
-/

namespace SpeechService

/-- The number format of an engine's weights and outputs. -/
inductive Precision where
  /-- All 32 bits. -/
  | f32
  /-- The upper 16 of 32 bits. -/
  | bf16
deriving DecidableEq, Repr, Inhabited

/-- The name of a precision. -/
def Precision.name : Precision → String
  | .f32 => "f32"
  | .bf16 => "bf16"

/-- A **device** on which an engine runs. -/
inductive Device where
  /-- The processor. -/
  | cpu
  /-- An accelerated device; without an ordinal, the default one. -/
  | accelerated (ordinal : Option UInt32)
deriving DecidableEq, Repr, Inhabited

/-- What an operator asks for. -/
inductive DevicePreference where
  /-- An accelerated device if there is one. -/
  | auto
  /-- The processor. -/
  | cpu
  /-- An accelerated device; without an ordinal, the default one. -/
  | accelerated (ordinal : Option UInt32)
deriving DecidableEq, Repr, Inhabited

/-- The name of an accelerated device. -/
def acceleratedName : Option UInt32 → String
  | none => "cuda"
  | some n => "cuda:" ++ Text.ofNat n.toNat

namespace Device

/-- The name of a device. -/
def name : Device → String
  | .cpu => "cpu"
  | .accelerated ordinal => acceleratedName ordinal

/-- Not the processor. -/
def isAccelerated : Device → Bool
  | .cpu => false
  | .accelerated _ => true

/-- The precision that a device calls for: the full one on the processor, the short one where
memory is scarce. -/
def precision : Device → Precision
  | .cpu => .f32
  | .accelerated _ => .bf16

end Device

/-- Why a text is not the name of a preference. The text is kept as it was given. -/
inductive DeviceNameError where
  /-- What follows the colon is not an ordinal. -/
  | invalidOrdinal (given : String)
  /-- No device has this name. -/
  | unknownDevice (given : String)
deriving DecidableEq, Repr

/-- The message for a text that names no preference. -/
def DeviceNameError.message : DeviceNameError → String
  | .invalidOrdinal given => "invalid device ordinal: " ++ given
  | .unknownDevice given => "unknown device: " ++ given

namespace DevicePreference

/-- The name of a preference. -/
def name : DevicePreference → String
  | .auto => "auto"
  | .cpu => "cpu"
  | .accelerated ordinal => acceleratedName ordinal

/-- The device that a preference comes to. An accelerated device that is not there gives way to
the processor. -/
def settle (preference : DevicePreference) (available : Bool) : Device :=
  match preference, available with
  | .auto, true => .accelerated none
  | .accelerated ordinal, true => .accelerated ordinal
  | _, _ => .cpu

/-- Reads an ordinal of 32 bits. -/
def ordinal? (s : List Char) : Option UInt32 := (Text.natural? Text.max32 s).map UInt32.ofNat

/-- Reads the name of a preference, in any case and with blanks around it. -/
def parse (given : String) : Except DeviceNameError DevicePreference :=
  match (Text.lower (Text.trim given)).toList with
  | [] => .ok .auto
  | ['a', 'u', 't', 'o'] => .ok .auto
  | ['c', 'p', 'u'] => .ok .cpu
  | ['c', 'u', 'd', 'a'] => .ok (.accelerated none)
  | ['g', 'p', 'u'] => .ok (.accelerated none)
  | ['a', 'c', 'c', 'e', 'l', 'e', 'r', 'a', 't', 'e', 'd'] => .ok (.accelerated none)
  | 'c' :: 'u' :: 'd' :: 'a' :: ':' :: rest =>
    match ordinal? rest with
    | some n => .ok (.accelerated (some n))
    | none => .error (.invalidOrdinal given)
  | _ => .error (.unknownDevice given)

end DevicePreference

end SpeechService
