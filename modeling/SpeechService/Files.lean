import SpeechService.Text.Segments

/-!
# Files

The files and directories that the service can see, and how a path leads to one of them. All of them
stand below one root. A path that begins with a slash leads there from the root, and any other path
from the **working directory**, in which the service was started.
-/

namespace SpeechService

/-- What stands at a path. -/
inductive FileEntry where
  | directory
  | file (content : List UInt8)
deriving DecidableEq, Repr

/-- The content of a file. -/
def FileEntry.content? : FileEntry → Option (List UInt8)
  | .file content => some content
  | .directory => none

/-- The **files**, by the names that lead to them from the root. -/
structure Files where
  /-- The names that lead from the root to the working directory. -/
  workingDirectory : List String := ["app"]
  entries : List (List String × FileEntry) := []
deriving Repr

namespace Files

/-- What stands at the end of a list of names. The working directory is there, and so is every
directory above it. -/
def at? (files : Files) (names : List String) : Option FileEntry :=
  if names.isPrefixOf files.workingDirectory then some .directory else files.entries.lookup names

/-- The lists of names that lead to a list of names, the longest one first. -/
def parents (names : List String) : List (List String) :=
  (List.range names.length).reverse.map names.take

/-- The files with one more entry below the working directory, and the directories that it
needs. -/
def insert (files : Files) (names : List String) (entry : FileEntry) : Files :=
  let full := files.workingDirectory ++ names
  let missing := (parents full).filter fun p => (files.at? p).isNone
  { files with entries := (full, entry) :: missing.map (·, .directory) ++ files.entries }

/-- The names of a path that are not written for nothing. -/
def names (path : String) : List String :=
  (Text.segments '/' path).filter fun s => s ≠ "" ∧ s ≠ "."

/-- The path leads from the root. -/
def isAbsolute (path : String) : Bool := path.toList.head? = some '/'

/-- Where a path leads from. -/
def start (files : Files) (path : String) : List String :=
  if isAbsolute path then [] else files.workingDirectory

/-- Follows the segments of a path from a list of names. Every name on the way has to be that of a
directory; above the root there is nothing but the root. -/
def follow (files : Files) : List String → List String → Option FileEntry
  | here, [] => files.at? here
  | here, s :: rest =>
    if files.at? here ≠ some .directory then none
    else if s ∈ ["", "."] then files.follow here rest
    else if s = ".." then files.follow here.dropLast rest
    else files.follow (here ++ [s]) rest

/-- What stands at a path. -/
def find? (files : Files) (path : String) : Option FileEntry :=
  if path.isEmpty then none else files.follow (files.start path) (Text.segments '/' path)

/-- There is a directory at this path. -/
def isDirectory (files : Files) (path : String) : Bool := files.find? path == some .directory

/-- The content of the file at this path. -/
def content? (files : Files) (path : String) : Option (List UInt8) :=
  (files.find? path).bind FileEntry.content?

/-- The names on the way to a path from the root. -/
def fullNames (files : Files) (path : String) : List String := files.start path ++ names path

/-- The way from one list of names to another. -/
def wayFrom : List String → List String → List String
  | base :: bases, name :: names =>
    if base = name then wayFrom bases names
    else ".." :: bases.map (fun _ => "..") ++ name :: names
  | bases, names => bases.map (fun _ => "..") ++ names

/-- How a list of names is reported: as the way from the working directory. -/
def reported (files : Files) (names : List String) : String :=
  String.intercalate "/" (wayFrom files.workingDirectory names)

end Files

end SpeechService
