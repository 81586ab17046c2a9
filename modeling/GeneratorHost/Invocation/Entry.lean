import GeneratorHost.Generator.Run
import GeneratorHost.Invocation.Sink

/-! The entry points of a unit around a generator. Panics of the generator are caught and reported
to the sink; `none` means that a panic leaves the entry point all the same. -/
namespace GeneratorHost

variable {σ : Type} [ArtifactSink σ]

/-- How a run ends. -/
inductive RunEnd (α : Type) where
  | done (value : α)
  | failed (error : ReturnedError)
  | panicked (panic : Panic)

namespace Run

/-- Follows a run with a sink that answers it. -/
def perform {α : Type} : Run α → InvocationSink σ → RunEnd α × InvocationSink σ
  | done value, s => (.done value, s)
  | failed error, s => (.failed error, s)
  | panicked panic, s => (.panicked panic, s)
  | add name text next, s =>
    let (accepted, s) := s.add (.ofString name) (.ofString text)
    (next accepted).perform s
  | report text next, s => next.perform (s.report (.ofString text))
  | pause time next, s => next.perform (s.pause time)

end Run

/-- The number with which running a generator ends. -/
inductive Status where
  | succeeded
  | returnedError
  | panicked
  | noInstance
deriving DecidableEq, Repr

namespace Status

def code : Status → Int
  | succeeded => 0
  | returnedError => 1
  | panicked => 2
  | noInstance => 3

end Status

namespace Panic

/-- Reports a caught panic to a sink, if there is one, and drops its payload. -/
def handled (p : Panic) (s? : Option (InvocationSink σ)) : Option (Option (InvocationSink σ)) :=
  if p.dropsQuietly then some (s?.map (·.fail p.report)) else none

end Panic

namespace Generator

/-- Makes a generator; the flag tells whether there is one. -/
def constructEntry (g : Generator) (s? : Option (InvocationSink σ)) :
    Option (Bool × Option (InvocationSink σ)) :=
  match g.construction? with
  | none => some (true, s?)
  | some panic => (panic.handled s?).map (false, ·)

/-- Runs a generator. An error is written and dropped outside of what catches panics. -/
def executeEntry (g? : Option Generator) (s? : Option (InvocationSink σ))
    (ds : List RawDeclaration) : Option (Status × Option (InvocationSink σ)) :=
  match g?, s? with
  | some g, some s =>
    match (g.execute (unmarshal ds)).perform s with
    | (.done (), s) => some (.succeeded, some s)
    | (.failed error, s) =>
      match error.text? with
      | some text =>
        if error.dropsQuietly then
          some (.returnedError, some (s.fail (ReturnedError.report text)))
        else none
      | none => none
    | (.panicked panic, s) => (panic.handled (some s)).map (.panicked, ·)
  | _, _ => some (.noInstance, s?)

/-- Drops a generator; the panic of its end is dropped with it. -/
def releaseEntry (g : Generator) : Option Unit :=
  match g.disposal? with
  | none => some ()
  | some panic => if panic.dropsQuietly then some () else none

end Generator
end GeneratorHost
