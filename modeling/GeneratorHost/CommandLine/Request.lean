import GeneratorHost.CommandLine.Level

/-! What a command line asks for. -/
namespace GeneratorHost.CommandLine

inductive Command where
  /-- Runs a pass over the sources of a folder and writes what it generates into another. -/
  | generate (source output : String)
  /-- Lists the declarations of a folder. -/
  | index (source : String) (onlyCandidates asJson : Bool)
  /-- Shows the support module, or writes it into a file. -/
  | runtime (output? : Option String)
deriving DecidableEq, Repr

structure Request where
  config : PassConfig
  command : Command
  /-- Whether only errors are logged. -/
  quiet : Bool := false
deriving DecidableEq, Repr

/-- The options of both levels and the environment variables. -/
structure Reading where
  outer : Level
  inner : Level
  environment : String → Option String

namespace Reading

/-- The values of an option: those of the inner level go before those of the outer one, and these
before the variable's. -/
def values (r : Reading) (s : Switch) : List String :=
  if r.inner.has s then r.inner.values s
  else if r.outer.has s then r.outer.values s
  else ((s.environment?.bind r.environment).map ([·])).getD []

def value? (r : Reading) (s : Switch) : Option String := (r.values s).getLast?

def has (r : Reading) (s : Switch) : Bool := r.inner.has s || r.outer.has s

/-- Whether the variables have values that their options can have. One is not looked at where its
option stands at both levels. -/
def environmentValid (r : Reading) : Bool :=
  Switch.shared.all fun s =>
    match s.environment?.bind r.environment with
    | some value => s.accepts value || (r.outer.has s && r.inner.has s)
    | none => true

/-- The number that an option gives, or else a standard one. -/
def number? (r : Reading) (s : Switch) (standard : Nat) : Option Nat :=
  match r.value? s with
  | some value => GeneratorHost.number? value.toList
  | none => some standard

/-- A number of seconds, where zero means no limit. -/
def timeout? (r : Reading) (s : Switch) (standard : Nat) : Option (Option Duration) :=
  (r.number? s standard).map fun n => if n = 0 then none else some (.ofSeconds n)

def edition? (r : Reading) : Option Edition :=
  match r.value? .edition with
  | some value => Edition.ofText? value
  | none => some default

/-- The configuration that the options describe. -/
def config? (r : Reading) : Option PassConfig := do
  let toolchain : ToolchainConfig :=
    { rustc? := r.value? .rustc
      macrosLibrary? := r.value? .macrosLibrary
      externs := ← (r.values .externCrate).mapM ExternCrate.ofText?
      searchPaths := r.values .searchPath }
  let config : PassConfig :=
    { supportName := (r.value? .supportName).getD SupportModule.defaultName
      edition := ← r.edition?
      toolchain
      compileTimeout? := ← r.timeout? .compileTimeout 300
      invokeTimeout? := ← r.timeout? .invokeTimeout 60
      emitsSupport := r.has .emitsSupport
      flags := r.values .compilerFlag }
  return config.withThreads (some (← r.number? .threads 0))

/-- The command of a name, if the options are there that it needs. -/
def command? (r : Reading) : CommandName → Option Command
  | .generate => do return .generate (← r.value? .source) (← r.value? .output)
  | .index => do return .index (← r.value? .source) (r.has .candidates) (r.has .json)
  | .runtime => some (.runtime (r.value? .output))

/-- The request, if all of it can be read. -/
def request? (r : Reading) (name : CommandName) : Option Request := do
  return { config := ← r.config?, command := ← r.command? name, quiet := r.has .quiet }

end Reading

namespace Request

/-- Reads the words of a command line. The options behind the command are read to the end before the
last one in front of it is checked. -/
def ofWords (environment : String → Option String) (words : List String) : Except Refusal Request := do
  let (outer, rest) ← Level.read (Switch.version :: Switch.shared) true {} words
  match rest with
  | none => throw .misuse
  | some (name, words) =>
    let (inner, _) ← Level.read (name.switches ++ Switch.shared) false {} words
    let r : Reading := { outer := ← outer.settle, inner, environment }
    if !r.environmentValid then throw .misuse
    match r.request? name with
    | some request => return request
    | none => throw .misuse

end Request
end GeneratorHost.CommandLine
