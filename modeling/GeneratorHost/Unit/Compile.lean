import GeneratorHost.Disk
import GeneratorHost.Failure.Compile
import GeneratorHost.Index.Build
import GeneratorHost.Toolchain.Message
import GeneratorHost.Toolchain.References
import GeneratorHost.Unit.Compiled
import GeneratorHost.Unit.Root

/-! Compiling a candidate into a unit, in a folder of its own. -/
namespace GeneratorHost

/-- A run of the compiler: the program, the folder it runs in, its arguments, and the files in the
folder by their paths. -/
structure CompilerCall where
  program : String
  folder : String
  arguments : List String
  files : List (String × String)
deriving DecidableEq, Repr

/-- What a run of the compiler came to: the number it ended with, what it printed, how long it took,
and the image at the place where it was asked for, or why that cannot be read. -/
structure CompilerRun where
  status : Nat
  stderr : String
  elapsed : Duration
  image : Except String Image

/-- What the compiler does for a candidate, or why it cannot be run. -/
abbrev Compiler := String → CompilerCall → Except String CompilerRun

/-- How units are compiled. The workspace is a folder in which nothing is at first. -/
structure UnitCompiler where
  references : References
  support : SupportModule
  timeout? : Option Duration := none
  flags : List String := []
  workspace : String

/-- Something that fails with an error, or does not end because a panic stops it. -/
abbrev Attempt := ExceptT CompileError Option

namespace UnitCompiler

/-- The name under which a generated root is shown. -/
def generatedRoot : String := "<selfgen unit root>"

/-- A path made relative, without the parts that lead up. -/
def placeOf (path : String) : String :=
  let names := (FilePath.ofText path).names
  if names.isEmpty then "candidate.rs" else "/".intercalate (names.map fun n => String.ofList n.chars)

def supportFile (c : UnitCompiler) : String := FilePath.join c.workspace c.support.fileName

def sourceFolder (c : UnitCompiler) : String := FilePath.join c.workspace "src"

/-- Where a candidate's file is written. -/
def candidateFile (c : UnitCompiler) (tree : SourceTree) : String :=
  FilePath.join c.sourceFolder (placeOf tree.path)

def rootFile (c : UnitCompiler) : String := FilePath.join c.workspace "lib.rs"

def imageFile (c : UnitCompiler) : String := FilePath.join c.workspace "libselfgen_unit.so"

/-- Why units of a tree cannot be compiled, if they cannot. -/
def checkEdition (c : UnitCompiler) (tree : SourceTree) : Except String Unit :=
  if tree.edition = c.support.edition then c.references.checkEdition tree.edition
  else .error (tree.path ++ " was parsed as edition " ++ tree.edition.text ++
    " but the runtime module uses edition " ++ c.support.edition.text)

/-- The name under which the unit's root is shown. -/
def rootName (tree : SourceTree) : String := if tree.isCrateRoot then tree.path else generatedRoot

/-- The first line of the root that is not the host's. -/
def firstGeneratedLine (tree : SourceTree) : Nat :=
  if tree.isCrateRoot then (Text.lines tree.text).length + 1 else 1

/-- The files of a unit with the names they are shown under. -/
def fileMap (c : UnitCompiler) (tree : SourceTree) : FileMap :=
  (c.supportFile, c.support.fileName) ::
    ((if tree.isCrateRoot then [] else [(c.candidateFile tree, tree.path)]) ++
      [(c.rootFile, rootName tree)])

/-- The workspace with the support module and the candidate's file, which the crate root holds
itself. -/
def writeSources (c : UnitCompiler) (tree : SourceTree) : Except String Disk := do
  let disk ← ({} : Disk).createFolders c.workspace
  let disk ← disk.write c.supportFile (Text.bytes supportSource)
  if tree.isCrateRoot then return disk
  let file := c.candidateFile tree
  let disk ← disk.createFolders ((FilePath.parent? file).getD "")
  disk.write file (Text.bytes tree.text)

/-- The root of the unit. -/
def root? (c : UnitCompiler) (name : String) (tree : SourceTree) : Option String :=
  if tree.isCrateRoot then
    UnitRoot.joined? name tree.text c.support.name c.supportFile tree.edition
  else
    UnitRoot.separate? name tree.module (c.candidateFile tree) c.support.name c.supportFile
      tree.edition

def arguments (c : UnitCompiler) (edition : Edition) : List String :=
  ["--edition", edition.text, "--crate-type", "cdylib", "--crate-name", "selfgen_unit",
    "--error-format=json", "-C", "opt-level=0", "-C", "panic=unwind"] ++
  c.references.libraryArguments ++ c.flags ++
  ["--remap-path-prefix=" ++ c.workspace ++ "=", "--remap-path-prefix=" ++ c.sourceFolder ++ "=",
    "-o", c.imageFile, c.rootFile]

/-- The text files of a workspace, by their paths from there. -/
def filesOf (c : UnitCompiler) (disk : Disk) : List (String × String) :=
  (disk.filesUnder (FilePath.ofText c.workspace |>.drop 1)).filterMap fun (path, file) =>
    match file.content with
    | .ok bytes =>
      some ("/".intercalate (path.map fun part => String.ofList part.chars), Text.lossy bytes)
    | .error _ => none

def missingDefault (name : String) : String :=
  name ++ " has no zero-argument construction path: generator types must implement `Default`"

/-- Restates an error in the part of the root that is not the host's. All that this part asks of a
generator is a default value. -/
def explain (name root : String) (firstLine : Nat) (d : Diagnostic) : Diagnostic :=
  match d.location? with
  | some location =>
    if location.file = root && firstLine ≤ location.line then
      { d with
        message := if Text.occursIn "Default".toList d.message.toList then missingDefault name
          else d.message
        location? := none }
    else d
  | none => d

/-- The error diagnostics of what the compiler printed. -/
def errors (c : UnitCompiler) (name : String) (tree : SourceTree) (stderr : String) : List Diagnostic :=
  (CompilerMessage.diagnostics stderr name (c.fileMap tree)).map
    (explain name (rootName tree) (firstGeneratedLine tree))

/-- What is said about a compiler that failed without an error. -/
def silentFailure (name : String) (run : CompilerRun) : Diagnostic :=
  { candidate := name, severity := .error, code? := some "SG0002"
    message := "rustc exited with exit status: " ++ toString run.status ++
      " without reporting an error: " ++ CompilerMessage.plainLines run.stderr }

/-- The unit that a finished run left, or why there is none. -/
def judge (c : UnitCompiler) (name : String) (tree : SourceTree) (run : CompilerRun) :
    Except CompileError CompiledUnit :=
  let errors := c.errors name tree run.stderr
  if !errors.isEmpty then .error (.diagnostics name errors)
  else if run.status ≠ 0 then .error (.diagnostics name [silentFailure name run])
  else
    match run.image with
    | .error source =>
      .error (.toolchain name ("rustc produced no image at " ++ c.imageFile ++ ": " ++ source))
    | .ok image =>
      match image.exports with
      | .error message => .error (.toolchain name ("unreadable image: " ++ message))
      | .ok exports => .ok ⟨name, image, exports, run.elapsed⟩

/-- The deadline, if a run missed it. -/
def missed? (c : UnitCompiler) (run : CompilerRun) : Option Duration :=
  c.timeout?.filter (¬ run.elapsed < ·)

/-- Writes the files of a unit into the workspace. -/
def prepare (c : UnitCompiler) (name : String) (tree : SourceTree) : Attempt Disk := do
  match c.checkEdition tree with
  | .error reason => throw (.configuration name reason)
  | .ok () => pure ()
  match c.writeSources tree with
  | .error source => throw (.io name source)
  | .ok disk =>
    let root ← (c.root? name tree : Option String)
    match disk.write c.rootFile (Text.bytes root) with
    | .error source => throw (.io name source)
    | .ok disk => return disk

/-- The run of the compiler that a candidate asks for. -/
def call (c : UnitCompiler) (candidate : Candidate) : Attempt CompilerCall := do
  let tree := candidate.node.tree
  let disk ← c.prepare candidate.name tree
  return ⟨c.references.rustc, c.workspace, c.arguments tree.edition, c.filesOf disk⟩

/-- Compiles a candidate. -/
def compile (c : UnitCompiler) (run : Compiler) (candidate : Candidate) : Attempt CompiledUnit := do
  let name := candidate.name
  let call ← c.call candidate
  match run name call with
  | .error source => throw (.toolchain name ("failed to run " ++ c.references.rustc ++ ": " ++ source))
  | .ok finished =>
    match c.missed? finished with
    | some deadline => throw (.timedOut name deadline)
    | none => ExceptT.mk (some (c.judge name candidate.node.tree finished))

end UnitCompiler
end GeneratorHost
