import SpeechService.Files
import SpeechService.Ini.Document
import SpeechService.Json.Tree
import SpeechService.Json5.Document
import SpeechService.Ron.Document
import SpeechService.Settings.KeyPath
import SpeechService.Text.Segments
import SpeechService.Toml.Document
import SpeechService.Yaml.Document

/-!
# The layers of the settings

The settings come from up to three layers, one or two files and the environment, on top of what
the service brings along. `Layer.all?` gives the layers in their order, the last one being the
strongest.

A file is looked for by name. A file that has this very name comes first and tells by its ending
how it is to be read; otherwise the endings that are known are tried.
-/

namespace SpeechService

/-- The forms in which files of settings are written. -/
inductive FileForm where
  | toml
  | json
  | yaml
  | ini
  | ron
  | json5
deriving DecidableEq, Repr

namespace FileForm

/-- The endings of file names, each with its form, in the order in which they are tried. -/
def endings : List (String × FileForm) :=
  [("toml", .toml), ("json", .json), ("yaml", .yaml), ("yml", .yaml), ("ini", .ini), ("ron", .ron),
    ("json5", .json5)]

/-- The form of a file, by the ending of its name. A name that only starts with a point has no
ending. -/
def ofName? (name : String) : Option FileForm :=
  match (Text.segments '.' name).reverse with
  | ending :: before :: rest =>
    if rest.isEmpty ∧ before.isEmpty then none else endings.lookup ending
  | _ => none

end FileForm

namespace Layer

/-- What the service brings along, below all layers. -/
def builtIn : Store :=
  .table [
    ("server", .table [
      ("host", .leaf (.string "0.0.0.0") none),
      ("port", .leaf (.integer 8000) none)] none),
    ("log", .table [
      ("level", .leaf (.string "info") none),
      ("json", .leaf (.bool false) none)] none)] none

/-- The variables of the environment, as texts. -/
def ofEnvironment (bindings : List (String × String)) : Layer :=
  bindings.filterMap fun (name, value) =>
    (KeyPath.ofVariable? name).map fun path => (path, .leaf (.string value) (some .environment))

/-- The value that a text states in one of the forms. -/
def value? (form : FileForm) (text : String) : Option Json :=
  match form with
  | .toml => Toml.read? text
  | .json => Json.read? text.toUTF8.toList
  | .yaml => Yaml.read? text
  | .ini => Ini.read? text
  | .ron => Ron.read? text
  | .json5 => Json5.read? text

/-- The layer of a store; only a table makes one. -/
def ofStore? : Store → Option Layer
  | .table members _ => some (members.map fun (key, value) => (KeyPath.ofKey key, value))
  | _ => none

/-! ### Files -/

/-- The names of a file with an added ending, which needs a name to be added to. -/
def withEnding? (names : List String) (ending : String) : Option (List String) :=
  match names.getLast? with
  | none | some ".." => none
  | some last => some (names.dropLast ++ [last ++ "." ++ ending])

/-- The file that a name means: the path as it is reported, the form and the content. -/
def locate? (files : Files) (name : String) : Option (String × FileForm × List UInt8) :=
  let names := files.fullNames name
  match files.content? name with
  | some content =>
    (FileForm.ofName? (names.getLast?.getD "")).map fun form =>
      (files.reported names, form, content)
  | none =>
    FileForm.endings.findSome? fun (ending, form) => do
      let ended ← withEnding? names ending
      let content ← (files.follow [] ended).bind FileEntry.content?
      some (files.reported ended, form, content)

/-- The layer of the file that a name means. A file that is found and is text has to follow its
form; beyond that, it is missed only where it is required. -/
def ofFile? (files : Files) (required : Bool) (name : String) : Option Layer :=
  let found := (locate? files name).bind fun (path, form, content) =>
    (Json.textOfBytes? content).map fun text => (path, form, text)
  match found with
  | some (path, form, text) =>
    (value? form text).bind fun v => ofStore? (.ofJson (some (.file path)) v)
  | none => if required then none else some []

/-- The names that are looked for where no file is named. -/
def usualNames : List String := ["config", "config.local"]

/-- All layers, the strongest one last. -/
def all? (files : Files) (environment : List (String × String)) (path : Option String) :
    Option (List Layer) := do
  let fromFiles ← match path with
    | some name => (ofFile? files true name).map ([·])
    | none => usualNames.mapM (ofFile? files false)
  some (fromFiles ++ [ofEnvironment environment])

end Layer

end SpeechService
