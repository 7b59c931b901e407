import SpeechService.Http.Exchange
import SpeechService.Rehearsal.Backend
import SpeechService.Rehearsal.Gate
import SpeechService.Service.Description
import SpeechService.Settings.Load
import SpeechService.Settings.Rendering
import SpeechService.Settings.Report
import SpeechService.Synthetic.Backend
import SpeechService.Wav.Reader
import SpeechService.Proofs.Slot.Roster
import SpeechService.Proofs.Gate.Run
import SpeechService.Proofs.Gate.Conservation
import SpeechService.Proofs.Service.Loading
import SpeechService.Recording
import SpeechService.Proofs.Service.SingleFlight
import SpeechService.Assembly
import SpeechService.Proofs.Synthetic.Loading
import SpeechService.Proofs.Synthetic.Course
import SpeechService.Proofs.Service.Alone
import SpeechService.Proofs.Http.Idle
import SpeechService.Proofs.Synthetic.Answer
import SpeechService.Proofs.Synthetic.ExactOutcome
import SpeechService.Http.FrontDesk
import SpeechService.Proofs.Service.Progress
import SpeechService.Proofs.Http.FrontDesk
import SpeechService.Proofs.Http.FairTurns
import SpeechService.Proofs.Synthetic.Serialisable
import SpeechService.Proofs.Slot.Queue
import SpeechService.Proofs.Gate.FirstCome
import SpeechService.Proofs.Gate.Closing
import SpeechService.Proofs.Binary.Nearest
import SpeechService.Proofs.Wav.RoundTrip
import SpeechService.Proofs.Service.Dealings
import SpeechService.Proofs.Service.Restitution
import SpeechService.Proofs.Service.Transcribed
import SpeechService.Proofs.Tensor.Representation
import SpeechService.Proofs.Json.Building
import SpeechService.Proofs.Http.Bodies
import SpeechService.Proofs.Http.Schema
import SpeechService.Proofs.Speech.Normalised
import SpeechService.Proofs.Text.Lowercase
import SpeechService.Proofs.Request.SpokenText
import SpeechService.Proofs.Settings.Checked
import SpeechService.Proofs.Settings.Store
import SpeechService.Proofs.Settings.KeyNames
import SpeechService.Proofs.Settings.Leaves
import SpeechService.Proofs.Settings.Precedence
import SpeechService.Proofs.Settings.Texts
import SpeechService.Proofs.Settings.Usable
import SpeechService.Proofs.Service.Supplies
import SpeechService.Proofs.Service.Faults
import SpeechService.Proofs.Http.Headers
import SpeechService.Proofs.Synthetic.Blocks
import SpeechService.Proofs.Service.InStep
import SpeechService.Proofs.Service.Respelled
import SpeechService.Proofs.Settings.SpelledOut
import SpeechService.Proofs.Service.Final
import SpeechService.Proofs.Synthetic.Readiness
import SpeechService.Proofs.Synthetic.Voices
import SpeechService.Proofs.Text.Digits
import SpeechService.Proofs.Device.Names
import SpeechService.Proofs.Binary.Halfway
import SpeechService.Proofs.Binary.Exact
import SpeechService.Proofs.Binary.Shortest
import SpeechService.Proofs.Binary.ReadBack
import SpeechService.Proofs.Settings.Rendered
import SpeechService.Proofs.Binary.Signed
import SpeechService.Proofs.Synthetic.Guarded
import SpeechService.Proofs.Tensor.Truncated
import SpeechService.Proofs.Wav.Quantised
