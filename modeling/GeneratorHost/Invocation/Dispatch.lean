import GeneratorHost.Generator.EntryPoint
import GeneratorHost.Invocation.Sink
import GeneratorHost.Report.Log
import GeneratorHost.Unit.Compiled

/-! Loading a unit and taking its generator through one life: construct, execute, release. -/
namespace GeneratorHost

/-- A call into a unit, which changes a world and answers; without an answer a panic left the call,
which ends the whole program. -/
abbrev Call (ω α : Type) := StateT ω Option α

/-- A unit whose code can be called by symbol. An instance is an address, and a null one is none. -/
structure LoadedUnit (ω : Type) where
  construct? : String → Option (Call ω (Option Nat))
  execute? : String → Option (Nat → List RawDeclaration → Call ω Int)
  release? : String → Option (Nat → Call ω Unit)

/-- What came of an invocation. -/
abbrev InvocationResult := Except InvocationError

namespace InvocationResult

/-- What a null instance means. -/
def ofNull (name : String) (report? : Option PanicReport) : InvocationResult Unit :=
  .error (.constructionFailed name
    ((report?.map (·.text)).getD "the constructor returned no instance"))

/-- The report for a panic that reported nothing. -/
def unknownPanic : PanicReport := ⟨"unknown", "panic without a report", "", ""⟩

/-- What the number means with which a generator ended. -/
def ofStatus (name : String) (status : Int) (report? : Option PanicReport) : InvocationResult Unit :=
  match status with
  | 0 => .ok ()
  | 1 => .error (.returned name ((report?.map (·.message)).getD ""))
  | 2 => .error (.runtime name (report?.getD unknownPanic))
  | other => .error (.constructionFailed name
      ("the unit rejected its instance (status " ++ toString other ++ ")"))

end InvocationResult

namespace LoadedUnit

variable {ω : Type}

/-- Constructs, runs and releases the generator of a name. -/
def run (u : LoadedUnit ω) (takeFailure : ω → Option PanicReport × ω) (name : String)
    (ds : List RawDeclaration) : Call ω (InvocationResult Unit) :=
  let take : Call ω (Option PanicReport) := fun w => some (takeFailure w)
  match u.construct? (EntryPoint.construct.symbol name), u.execute? (EntryPoint.execute.symbol name) with
  | none, _ => pure (.error (.typeNotFound name (EntryPoint.construct.symbol name)))
  | some _, none => pure (.error (.entryPointNotFound name (EntryPoint.execute.symbol name)))
  | some construct, some execute => do
    match ← construct with
    | none => return .ofNull name (← take)
    | some address =>
      let status ← execute address ds
      match u.release? (EntryPoint.release.symbol name) with
      | some release => release address
      | none => pure ()
      return .ofStatus name status (← take)

end LoadedUnit

/-- What a generator that succeeded left behind besides its sources. -/
structure InvocationReport where
  candidate : String
  added : Nat
  notes : List String
deriving DecidableEq, Repr

/-- How units are invoked: the time they may take and the names they may not use. -/
structure Dispatcher where
  timeout? : Option Duration := none
  reserved : List String := [DiagnosticLog.artifactName]
deriving DecidableEq, Repr

namespace Dispatcher

/-- Reserves one more name. -/
def reserve (name : String) (d : Dispatcher) : Dispatcher := { d with reserved := d.reserved ++ [name] }

def isReserved (d : Dispatcher) (name : String) : Bool := d.reserved.contains name

variable {σ : Type}

/-- The sink of a new invocation. -/
def sink (d : Dispatcher) (artifacts : σ) : InvocationSink σ :=
  { artifacts, reserved := d.reserved, clock := { deadline? := d.timeout? } }

/-- What an invocation comes to, given what its generator came to. -/
def conclude (name : String) (result : InvocationResult Unit) (s : InvocationSink σ) :
    InvocationResult InvocationReport :=
  match s.clock.missed? with
  | some deadline => .error (.timedOut name deadline)
  | none => result.map fun _ => ⟨name, s.added, s.notes⟩

/-- Loads a unit and runs the generator of a name over some declarations. A unit that does not
export the generator's entry points is not loaded. -/
def invoke (d : Dispatcher) (load : Image → Except String (LoadedUnit (InvocationSink σ)))
    (u : CompiledUnit) (name : String) (ds : List RawDeclaration) :
    Call σ (InvocationResult InvocationReport) := fun artifacts =>
  let construct := EntryPoint.construct.symbol name
  let execute := EntryPoint.execute.symbol name
  if !u.hasExport construct then some (.error (.typeNotFound name construct), artifacts)
  else if !u.hasExport execute then some (.error (.entryPointNotFound name execute), artifacts)
  else
    match load u.image with
    | .error reason => some (.error (.load name reason), artifacts)
    | .ok unit =>
      (unit.run InvocationSink.takeFailure name ds (d.sink artifacts)).map fun (result, s) =>
        (conclude name result s, s.artifacts)

end Dispatcher
end GeneratorHost
