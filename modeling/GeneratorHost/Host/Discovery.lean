import GeneratorHost.Disk
import GeneratorHost.Failure.Source
import GeneratorHost.Host.Compilation
import GeneratorHost.Host.Layout
import GeneratorHost.Text.Lossy

/-! The source trees of a folder: every source file that has a module path, in order, and each
module once. -/
namespace GeneratorHost

/-- Trees found so far, and what is to be said about files that were passed over. -/
structure Discovery where
  compilation : HostCompilation
  warnings : List String := []

namespace Discovery

/-- The text of a path of names. -/
def pathText (path : FilePath) : String :=
  "/".intercalate (path.map fun part => String.ofList part.chars)

/-- The path under which a tree is shown; a backslash shows as a slash. -/
def shownPath (path : FilePath) : String :=
  String.ofList ((pathText path).toList.map fun c => if c = '\\' then '/' else c)

/-- The text of a file. -/
def readText (file : DiskFile) : Except String String := do
  match Text.ofBytes? (← file.content) with
  | some text => return text
  | none => throw "stream did not contain valid UTF-8"

/-- The tree of a file at a module. -/
def treeOf (edition : Edition) (path : FilePath) (module text : String) : SourceTree :=
  { path := shownPath path, module, text, edition }

def warn (message : String) (d : Discovery) : Discovery := { d with warnings := d.warnings ++ [message] }

/-- Mounts a file, unless it has no module path or its module is mounted. -/
def add (root : String) (d : Discovery) (entry : FilePath × DiskFile) : Except SourceError Discovery :=
  let (path, file) := entry
  match Layout.moduleOf? path with
  | none =>
    if Layout.isSource path then .ok (d.warn ("skipping " ++ pathText path ++ ": not a module path"))
    else .ok d
  | some module =>
    if (d.compilation.treeAt? module).isSome then
      .ok (d.warn ("skipping " ++ pathText path ++ ": " ++ module ++ " is already mounted"))
    else
      match readText file with
      | .error source => .error (.read (FilePath.join root (pathText path)) source)
      | .ok text =>
        let edition := d.compilation.edition
        .ok { d with compilation := ⟨d.compilation.trees ++ [treeOf edition path module text], edition⟩ }

/-- Mounts files in order. -/
def ofFiles (root : String) (edition : Edition) (files : List (FilePath × DiskFile)) :
    Except SourceError Discovery :=
  files.foldlM (add root) { compilation := ⟨[], edition⟩ }

/-- Mounts the files of a folder. A file has none. -/
def ofFolder (disk : Disk) (root : String) (edition : Edition) : Except SourceError Discovery :=
  match disk.find root with
  | .error source => .error (.read root ("IO error for operation on " ++ root ++ ": " ++ source))
  | .ok (_, .file _) => ofFiles root edition []
  | .ok (place, .folder) => ofFiles root edition (disk.filesUnder place)

end Discovery
end GeneratorHost
