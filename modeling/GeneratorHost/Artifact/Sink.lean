import GeneratorHost.Artifact.Name

/-! Sinks that take generated sources, in memory and in a directory. A sink takes each name once. -/
namespace GeneratorHost

/-- Generated sources in the order they were added. -/
structure ArtifactStore where
  artifacts : List Artifact := []
deriving DecidableEq, Repr, Inhabited

namespace ArtifactStore

def names (s : ArtifactStore) : List String := s.artifacts.map (·.name)

def size (s : ArtifactStore) : Nat := s.artifacts.length

def get? (s : ArtifactStore) (name : String) : Option String :=
  (s.artifacts.find? (·.name = name)).map (·.text)

def add (s : ArtifactStore) (name text : String) : Except SinkError ArtifactStore :=
  if !isArtifactName name then .error (.invalidName name)
  else if s.names.contains name then .error (.duplicate name)
  else .ok ⟨s.artifacts ++ [⟨name, text⟩]⟩

end ArtifactStore

/-- A directory: its files and the names of the directories in it. -/
structure Folder where
  files : List (String × String) := []
  folders : List String := []
deriving Repr

namespace Folder

/-- The most bytes a file's name may have. -/
def maxNameBytes : Nat := 255

def get? (f : Folder) (name : String) : Option String := f.files.lookup name

/-- Writes a file, or tells why that is not possible. -/
def write (f : Folder) (name text : String) : Folder × Option String :=
  if maxNameBytes < name.utf8ByteSize then (f, some "File name too long (os error 36)")
  else if f.folders.contains name then (f, some "Is a directory (os error 21)")
  else ({ f with files := f.files.filter (·.1 ≠ name) ++ [(name, text)] }, none)

/-- Makes a directory, where nothing has its name. -/
def makeFolder (f : Folder) (name : String) : Folder :=
  if isArtifactName name && !f.folders.contains name && (f.get? name).isNone then
    { f with folders := f.folders ++ [name] }
  else f

/-- Removes a directory. -/
def removeFolder (f : Folder) (name : String) : Folder :=
  { f with folders := f.folders.filter (· ≠ name) }

end Folder

/-- What a system does with a text that is to be written to a file of a directory: what the directory
is then, and why it failed, if it did. -/
abbrev Writer := Folder → String → String → Folder × Option String

/-- A sink that writes into a directory, and the names it wrote. -/
structure DirectorySink where
  folder : Folder := {}
  written : List String := []

namespace DirectorySink

/-- Takes a source under a name that was not written before. The name counts as written before the
system writes the file, and no more if that fails. -/
def put (write : Writer) (s : DirectorySink) (name text : String) : DirectorySink × Option SinkError :=
  if !isArtifactName name then (s, some (.invalidName name))
  else if s.written.contains name then (s, some (.duplicate name))
  else
    let written := s.written ++ [name]
    match write s.folder name text with
    | (folder, none) => (⟨folder, written⟩, none)
    | (folder, some source) => (⟨folder, written.erase name⟩, some (.io name source))

/-- Adds a source. A file that cannot be written leaves the directory as it is. -/
def add (s : DirectorySink) (name text : String) : Except SinkError DirectorySink :=
  match s.put Folder.write name text with
  | (s, none) => .ok s
  | (_, some e) => .error e

end DirectorySink

/-- A sink that takes generated sources by name, or tells why it does not. -/
class ArtifactSink (σ : Type) where
  add : σ → String → String → Except SinkError σ

instance : ArtifactSink ArtifactStore := ⟨ArtifactStore.add⟩

instance : ArtifactSink DirectorySink := ⟨DirectorySink.add⟩

end GeneratorHost
