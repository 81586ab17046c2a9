import GeneratorHost.Invocation.Dispatch
import GeneratorHost.Pass.Config
import GeneratorHost.Report.Statistics
import GeneratorHost.Unit.Compile

/-! Generation passes: every candidate of a host is compiled and run once. What fails is recorded and
does not stop the others, and the record is the last artifact of the pass. -/
namespace GeneratorHost

/-- What compiles candidates and what loads the units. -/
structure PassTools (σ : Type) where
  compiler : Compiler
  load : Image → Except String (LoadedUnit (InvocationSink σ))

/-- What a pass has come to so far. -/
structure PassState (σ : Type) where
  artifacts : σ
  log : DiagnosticLog := {}
  statistics : Statistics := {}

namespace PassState

variable {σ : Type}

/-- Adds an artifact of the pass itself. One that the sink refuses is passed over. -/
def emit [ArtifactSink σ] (s : PassState σ) (name text : String) : PassState σ :=
  match ArtifactSink.add s.artifacts name text with
  | .ok artifacts => { s with artifacts, statistics := s.statistics.withArtifact }
  | .error _ => s

/-- Records a candidate that failed. -/
def fail (s : PassState σ) (stage : Stage) (name : String) (ds : List Diagnostic) : PassState σ :=
  { s with log := s.log.record name ds, statistics := s.statistics.withFailure stage }

/-- Records a candidate that was compiled. -/
def compiled (s : PassState σ) (name : String) (u : CompiledUnit) : PassState σ :=
  { s with statistics := s.statistics.withCompiled name u.size u.compileTime }

/-- Records what came of running a candidate. -/
def invoked (s : PassState σ) (name : String) (result : InvocationResult InvocationReport) :
    PassState σ :=
  match result with
  | .ok report => { s with statistics := s.statistics.withInvoked report.added }
  | .error e => s.fail .invoke name [e.toDiagnostic]

end PassState

/-- What came of a pass. -/
structure PassReport where
  statistics : Statistics
  diagnostics : String
  /-- Qualified names of the candidates. -/
  candidates : List String
deriving DecidableEq, Repr

namespace PassReport

def hasDiagnostics (r : PassReport) : Bool := r.diagnostics ≠ ""

end PassReport

/-- A pass before it runs: what it needs besides a host. -/
structure Pass where
  config : PassConfig
  references : References
  workspace : String

namespace Pass

/-- Prepares a pass; nothing is looked for unless the configuration is valid. -/
def prepare (config : PassConfig) (workspace : String)
    (discover : ToolchainConfig → Except ConfigError References) : Except ConfigError Pass := do
  config.validate
  return ⟨config, ← discover config.toolchain, workspace⟩

def support (p : Pass) : SupportModule := p.config.support

def compiler (p : Pass) : UnitCompiler where
  references := p.references
  support := p.support
  timeout? := p.config.compileTimeout?
  flags := p.config.flags
  workspace := p.workspace

/-- The dispatcher; the support module's file is reserved if the pass emits it. -/
def dispatcher (p : Pass) : Dispatcher :=
  let d : Dispatcher := { timeout? := p.config.invokeTimeout? }
  if p.config.emitsSupport then d.reserve p.support.fileName else d

/-- The index of a host with the support module mounted. -/
def index (p : Pass) (host : HostCompilation) : DeclarationIndex :=
  .build (host.withSupport p.support) p.support

variable {σ : Type} [ArtifactSink σ]

/-- Compiles and runs a candidate. -/
def process (p : Pass) (tools : PassTools σ) (ds : List RawDeclaration) (s : PassState σ)
    (c : Candidate) : Option (PassState σ) := do
  match ← (p.compiler.compile tools.compiler c).run with
  | .error e => return s.fail .compile c.name e.toDiagnostics
  | .ok unit =>
    let s := s.compiled c.name unit
    let (result, artifacts) ← p.dispatcher.invoke tools.load unit c.name ds s.artifacts
    return { s with artifacts }.invoked c.name result

/-- The state in which the candidates of an index are met. -/
def begin (p : Pass) (index : DeclarationIndex) (artifacts : σ) : PassState σ :=
  let statistics := ({} : Statistics).withIndex index.records.length index.candidates.length
  let s : PassState σ := { artifacts, statistics }
  if p.config.emitsSupport then s.emit p.support.fileName supportSource else s

/-- Adds the record of what failed as the last artifact. -/
def finish (s : PassState σ) : PassState σ :=
  s.emit DiagnosticLog.artifactName (DiagnosticLog.comment s.log.text)

/-- Runs the pass over a host; there is no report if a panic stops it. -/
def run (p : Pass) (tools : PassTools σ) (host : HostCompilation) (artifacts : σ) :
    Option (PassReport × σ) := do
  let index := p.index host
  let s ← index.candidates.foldlM (p.process tools (marshal index.records)) (p.begin index artifacts)
  let s := finish s
  return (⟨s.statistics, s.log.text, index.candidates.map (·.name)⟩, s.artifacts)

end Pass
end GeneratorHost
