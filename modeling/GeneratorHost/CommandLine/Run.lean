import GeneratorHost.CommandLine.Request
import GeneratorHost.Host.Discovery
import GeneratorHost.Index.Listing
import GeneratorHost.Pass.Run

/-! Running a command on a disk. -/
namespace GeneratorHost.CommandLine

/-- What a command works with besides the disk. -/
structure Surroundings where
  /-- Path of this program; the marker's library is looked for near it. -/
  location : String
  /-- The compiler where none is configured. -/
  standard : String
  /-- What running a program does. -/
  program : Program
  tools : PassTools DirectorySink
  /-- The folder in which units are compiled. -/
  workspace : String
  /-- How long a pass takes. -/
  elapsed : Duration := ⟨0⟩

/-- What is said on the way. -/
inductive Remark where
  | error (text : String)
  | warning (text : String)
  /-- What a pass came to. -/
  | report (text : String)
deriving DecidableEq, Repr

namespace Remark

/-- A logged text; its further lines are indented. -/
def logged (origin text : String) : String := "[" ++ origin ++ "] " ++ text.replace "\n" "\n    " ++ "\n"

/-- The lines of a remark. Warnings are not shown to someone who wants it quiet. -/
def shown (quiet : Bool) : Remark → String
  | error text => logged "ERROR selfgen" text
  | warning text => if quiet then "" else logged "WARN  selfgen::syntax" text
  | report text => text

end Remark

/-- What a command has done so far. -/
structure Progress where
  disk : Disk
  stdout : String := ""
  remarks : List Remark := []

/-- A step of a command, which can fail with a message. -/
abbrev Action := ExceptT String (StateM Progress)

namespace Action

/-- Goes on with a result, or fails with the message of its error. -/
def get {ε α : Type} (message : ε → String) : Except ε α → Action α
  | .ok a => pure a
  | .error e => throw (message e)

def print (text : String) : Action Unit := modify fun p => { p with stdout := p.stdout ++ text }

def remark (rs : List Remark) : Action Unit := modify fun p => { p with remarks := p.remarks ++ rs }

def disk : Action Disk := return (← MonadState.get).disk

def setDisk (disk : Disk) : Action Unit := modify fun p => { p with disk }

/-- Loads the sources of a folder. -/
def load (source : String) (edition : Edition) : Action HostCompilation := do
  let d ← get SourceError.message (Discovery.ofFolder (← disk) source edition)
  remark (d.warnings.map .warning)
  return d.compilation

/-- Makes a folder and the folders around it. -/
def openFolder (path : String) : Action FilePath := do
  let message (source : String) := "Failed to create " ++ path ++ ": " ++ source
  let d ← get message ((← disk).createFolders path)
  setDisk d
  get message (d.locate path)

end Action

/-- The folder that a sink writes into, as it is at first. -/
def sinkOf (d : Disk) (place : FilePath) : DirectorySink :=
  let folders := (d.entriesOf place).filterMap fun (name, entry) =>
    match entry with
    | .folder => some (String.ofList name)
    | .file _ => none
  { folder := { folders } }

/-- Puts the files of a sink into its folder. -/
def store (d : Disk) (place : FilePath) (s : DirectorySink) : Disk :=
  s.folder.files.foldl (fun d (name, text) => d.put (place ++ [.name name.toList]) (Text.bytes text)) d

/-- The lines about a pass that has ended. -/
def summary (r : PassReport) (elapsed : Duration) : String :=
  r.statistics.text elapsed ++ if r.hasDiagnostics then Text.trimEnd r.diagnostics ++ "\n" else ""

namespace Surroundings

/-- Finds the toolchain of a configuration. -/
def discover (w : Surroundings) (d : Disk) (c : ToolchainConfig) : Except ConfigError References :=
  References.discover c d w.program w.standard (References.searchMacros d w.location)

/-- Runs a pass and writes what it generates; a panic that stops it ends the program. -/
def generate (w : Surroundings) (config : PassConfig) (source output : String) : Action Nat := do
  let host ← Action.load source config.edition
  let pass ← Action.get ConfigError.message
    (Pass.prepare config w.workspace (w.discover (← Action.disk)))
  let place ← Action.openFolder output
  let disk ← Action.disk
  match pass.run w.tools host (sinkOf disk place) with
  | none => return 101
  | some (report, sink) =>
    Action.setDisk (store disk place sink)
    Action.remark [.report (summary report w.elapsed)]
    return if report.hasDiagnostics then 1 else 0

end Surroundings

/-- Lists the declarations of a folder. -/
def index (config : PassConfig) (source : String) (onlyCandidates asJson : Bool) : Action Nat := do
  Action.get ConfigError.message config.validate
  let host ← Action.load source config.edition
  let listing := IndexListing.ofIndex (.build (host.withSupport config.support) config.support)
  let listing := if onlyCandidates then listing.candidates else listing
  Action.print (if asJson then listing.json else listing.table)
  return 0

/-- Shows the support module, or writes it into a file. -/
def runtime : Option String → Action Nat
  | none => do
    Action.print supportSource
    return 0
  | some path => do
    let message (source : String) := "Failed to write " ++ path ++ ": " ++ source
    Action.setDisk (← Action.get message ((← Action.disk).write path (Text.bytes supportSource)))
    return 0

/-- Runs the command of a request. -/
def Request.run (w : Surroundings) (r : Request) : Action Nat :=
  match r.command with
  | .generate source output => w.generate r.config source output
  | .index source onlyCandidates asJson => index r.config source onlyCandidates asJson
  | .runtime output? => runtime output?

/-- What a program that has ended leaves behind. -/
structure Outcome where
  status : Nat
  disk : Disk
  stdout : String := ""
  stderr : String := ""

namespace Outcome

/-- The text that tells the name and the version. -/
def versionText : String := "selfgen 0.1.0\n"

/-- The text that tells how the program is used. -/
def helpText : String :=
  "Compile and run the source generators a crate defines for itself\n\n" ++
  "Usage: selfgen [OPTIONS] <COMMAND>\n\nCommands:\n" ++
  String.join (CommandName.all.map fun name => "  " ++ name.text ++ "\n")

/-- What a program comes to that has no command to run. -/
def ofRefusal (disk : Disk) : Refusal → Outcome
  | .help => { status := 0, disk, stdout := helpText }
  | .version => { status := 0, disk, stdout := versionText }
  | .misuse => { status := 2, disk, stderr := helpText }

/-- Runs an action to its end; one that fails says why. -/
def ofAction (disk : Disk) (quiet : Bool) (action : Action Nat) : Outcome :=
  let (result, p) := action.run.run { disk }
  let (status, remarks) : Nat × List Remark := match result with
    | .ok status => (status, p.remarks)
    | .error text => (2, p.remarks ++ [.error text])
  { status, disk := p.disk, stdout := p.stdout
    stderr := String.join (remarks.map (·.shown quiet)) }

end Outcome

/-- Runs the program with the words of a command line. -/
def run (w : Surroundings) (disk : Disk) (environment : String → Option String) (words : List String) :
    Outcome :=
  match Request.ofWords environment words with
  | .error refusal => .ofRefusal disk refusal
  | .ok request => .ofAction disk request.quiet (request.run w)

end GeneratorHost.CommandLine
