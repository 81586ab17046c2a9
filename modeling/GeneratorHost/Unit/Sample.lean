import GeneratorHost.Generator.Script
import GeneratorHost.Image.Writer
import GeneratorHost.Invocation.Dispatch
import GeneratorHost.Invocation.Entry

/-! A ready-made unit: its generators follow scripts, and the entry points of some of them
misbehave. -/
namespace GeneratorHost.SampleUnit

/-- What a generator of the unit exports and does. -/
inductive Behaviour where
  | complete
  | constructOnly
  | withoutRelease
  /-- Runs without its instance. -/
  | rejecting
  /-- Constructs nothing and says nothing about it. -/
  | null
  /-- Ends with a number and does nothing else. -/
  | status (code : Int)
deriving DecidableEq, Repr

namespace Behaviour

def exports : Behaviour → List EntryPoint
  | complete | rejecting => [.construct, .execute, .release]
  | constructOnly => [.construct]
  | withoutRelease | null | status _ => [.construct, .execute]

end Behaviour

/-- The generators of the unit. -/
def generators : List (String × Behaviour) :=
  [("crate::Root", .complete), ("crate::gen::Alpha", .complete), ("crate::gen::Beta", .complete),
    ("crate::gen::Gamma", .complete), ("crate::type::Kw", .complete),
    ("crate::gen::NoExec", .constructOnly), ("crate::gen::NoRelease", .withoutRelease),
    ("crate::gen::Reject", .rejecting), ("crate::gen::NullCtor", .null),
    ("crate::gen::Status1", .status 1), ("crate::gen::Status2", .status 2),
    ("crate::gen::Status7", .status 7), ("crate::gen::StatusNeg", .status (-2147483648))]

/-- All names that the unit exports. -/
def exports : List String :=
  generators.flatMap fun (name, behaviour) => behaviour.exports.map (·.symbol name)

def image : Image := .exporting exports

/-- The generator and the behaviour behind a symbol of an entry point. -/
def find? (e : EntryPoint) (symbol : String) : Option (String × Behaviour) :=
  generators.find? fun (name, behaviour) => behaviour.exports.contains e && e.symbol name = symbol

variable {σ : Type} [ArtifactSink σ]

/-- An entry point that works on the sink of an invocation. -/
def onSink {α : Type} (entry : Option (InvocationSink σ) → Option (α × Option (InvocationSink σ))) :
    Call (InvocationSink σ) α := fun s =>
  (entry (some s)).map fun (answer, s?) => (answer, s?.getD s)

/-- The address of every instance. -/
def address : Nat := 1

/-- The loaded unit; the generator of a name is given. -/
def loaded (generator : String → Generator) : LoadedUnit (InvocationSink σ) where
  construct? symbol := (find? .construct symbol).map fun (name, behaviour) => do
    if behaviour = .null then return none
    return if ← onSink (generator name).constructEntry then some address else none
  execute? symbol := (find? .execute symbol).map fun (name, behaviour) => fun _ ds =>
    match behaviour with
    | .status code => return code
    | _ => do
      let generator? := if behaviour = .rejecting then none else some (generator name)
      return (← onSink fun s? => Generator.executeEntry generator? s? ds).code
  release? symbol := (find? .release symbol).map fun (name, _) => fun _ => fun s =>
    (generator name).releaseEntry.map fun _ => ((), s)

/-- Loads the unit from its image; nothing else is one. -/
def load (reason : String) (scripts : String → Script) (i : Image) :
    Except String (LoadedUnit (InvocationSink σ)) :=
  if i = image then .ok (loaded fun name => (scripts name).generator {}) else .error reason

end GeneratorHost.SampleUnit
