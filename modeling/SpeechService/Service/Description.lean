import SpeechService.Service.Task

/-!
# Descriptions of a loaded model

The text that stands for a loaded model in a log, up to the time at which it was loaded.
-/

namespace SpeechService

/-- A device as a log shows it. -/
def Device.description : Device → String
  | .cpu => "Cpu"
  | .accelerated none => "Accelerated \x7b ordinal: None \x7d"
  | .accelerated (some n) => "Accelerated \x7b ordinal: Some(" ++ Text.ofNat n.toNat ++ ") \x7d"

/-- A precision as a log shows it. -/
def Precision.description : Precision → String
  | .f32 => "F32"
  | .bf16 => "Bf16"

/-- A loaded model as a log shows it. -/
def LoadedModel.description {B : Backend} (m : LoadedModel B) : String :=
  "EngineHandle \x7b device: " ++ m.device.description ++ ", precision: "
    ++ m.precision.description ++ ", "

end SpeechService
