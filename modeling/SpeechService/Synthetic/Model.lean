import SpeechService.Failure
import SpeechService.Files
import SpeechService.Json.Decode
import SpeechService.Text.Blank

/-!
# Models

A model is named by a path or by a name in a hub. The name of a directory that is there means this
directory; any other name that looks like a path is an error, and the rest are names in the hub.

A directory may hold a file about the processor of the model: the sample rate and the voices. What
the file does not say, and everything about a model in the hub, is left to the defaults.
-/

namespace SpeechService

/-- Where a **model** is. -/
inductive ModelSource where
  | directory (path : String)
  | hub (name : String)
deriving DecidableEq, Repr

namespace ModelSource

/-- The name is written like a path. -/
def looksLikePath (name : List Char) : Bool :=
  name.take 1 == ['/'] || name.take 2 == ['.', '/'] || name.take 3 == ['.', '.', '/']
    || name.take 1 == ['~'] || name.contains '\\'

/-- The source that a name means. -/
def resolve (files : Files) (modelId : String) : Except EngineError ModelSource :=
  let name := Text.trim modelId
  if name.isEmpty then .error (.load "model id is empty")
  else if files.isDirectory name then .ok (.directory name)
  else if looksLikePath name.toList then .error (.load ("model directory not found: " ++ name))
  else .ok (.hub name)

end ModelSource

/-- What a model says about its processor. -/
structure Preprocessor where
  /-- The rate outside the section on audio. -/
  ownRate : Option Nat := none
  /-- The rate in the section on audio. -/
  audioRate : Option Nat := none
  voices : Option (List String) := none
deriving DecidableEq, Repr

namespace Preprocessor

/-- The sample rate; the section on audio comes first. -/
def rate (p : Preprocessor) : Option Nat := p.audioRate.or p.ownRate

/-- A rate, or null. -/
def rateReader : Json.Reader (Option Nat) := fun t =>
  ((Json.Reader.integer 0 Text.max32 "u32").optional t).map (·.map Int.toNat)

/-- The section on audio. -/
def audioReader : Json.Reader (Option Nat) :=
  Json.Reader.record "AudioProcessorConfig"
    [Json.Reader.field "sampling_rate" rateReader false fun _ rate => rate] none

/-- The file about the processor. -/
def reader : Json.Reader Preprocessor :=
  Json.Reader.record "PreprocessorConfig"
    [Json.Reader.field "sampling_rate" rateReader false
      fun (p : Preprocessor) rate => { p with ownRate := rate },
     Json.Reader.field "audio_processor" audioReader.optional false
      fun (p : Preprocessor) rate => { p with audioRate := rate.join },
     Json.Reader.field "voices" Json.Reader.text.list.optional false
      fun (p : Preprocessor) voices => { p with voices }] {}

/-- The message about a file that does not fit. Where the text is not JSON, nothing more is
said. -/
def problemText : Json.Problem → String
  | .malformed => "*"
  | .fault _ cause => cause.message

/-- Reads the bytes of the file. -/
def ofBytes (content : List UInt8) : Except String Preprocessor :=
  if (Json.textOfBytes? content).isNone then .error "stream did not contain valid UTF-8"
  else
    match Json.Tree.ofBytes content with
    | (tree, rest) =>
      match reader tree with
      | .ok p => if rest.isEmpty then .ok p else .error (problemText .malformed)
      | .error e => .error (problemText e)

/-- The name of the file about the processor. -/
def fileName : String := "preprocessor_config.json"

/-- The path of that file in a directory. -/
def filePath (directory : String) : String :=
  if directory.toList.getLast? = some '/' then directory ++ fileName
  else directory ++ "/" ++ fileName

/-- Reads the file in a directory; without it, nothing is said. -/
def ofDirectory (files : Files) (directory : String) : Except EngineError Preprocessor :=
  let path := filePath directory
  let content : Except String Preprocessor := match files.find? path with
    | none => .ok {}
    | some .directory => .error "Is a directory (os error 21)"
    | some (.file content) => ofBytes content
  content.mapError fun text => .load (path ++ ": " ++ text)

/-- What is said about the processor of a model. -/
def ofModel (files : Files) (modelId : String) : Except EngineError Preprocessor := do
  match ← ModelSource.resolve files modelId with
  | .directory path => ofDirectory files path
  | .hub _ => return {}

end Preprocessor

end SpeechService
