import GeneratorHost.Artifact.Sink
import GeneratorHost.Generator.View
import GeneratorHost.Failure.Invocation

/-! The host's side of an invocation: what a unit's calls back do. -/
namespace GeneratorHost

/-- The time that an invocation took so far and the time it may take. -/
structure Clock where
  elapsed : Duration := ⟨0⟩
  deadline? : Option Duration := none
deriving DecidableEq, Repr

namespace Clock

def advance (c : Clock) (time : Duration) : Clock := { c with elapsed := c.elapsed + time }

/-- The deadline, once it is reached. -/
def missed? (c : Clock) : Option Duration := c.deadline?.filter (¬ c.elapsed < ·)

end Clock

/-- The sink of one invocation. It stops taking anything but failures once it is closed. -/
structure InvocationSink (σ : Type) where
  artifacts : σ
  /-- Names that a pass keeps for itself. -/
  reserved : List String := []
  closed : Bool := false
  added : Nat := 0
  notes : List String := []
  failure? : Option PanicReport := none
  clock : Clock := {}

namespace InvocationSink

variable {σ : Type}

/-- Takes a source unless the sink is closed, the name is reserved or the sink behind refuses it;
tells whether it did. -/
def add [ArtifactSink σ] (s : InvocationSink σ) (name text : RawText) : Bool × InvocationSink σ :=
  if s.closed || s.reserved.contains name.toText then (false, s)
  else
    match ArtifactSink.add s.artifacts name.toText text.toText with
    | .ok artifacts => (true, { s with artifacts, added := s.added + 1 })
    | .error _ => (false, s)

/-- Keeps a note. -/
def report (s : InvocationSink σ) (text : RawText) : InvocationSink σ :=
  if s.closed then s else { s with notes := s.notes ++ [text.toText] }

/-- Keeps the first failure. -/
def fail (s : InvocationSink σ) (report : PanicReport) : InvocationSink σ :=
  match s.failure? with
  | some _ => s
  | none => { s with failure? := some report }

/-- Hands out the failure that was kept. -/
def takeFailure (s : InvocationSink σ) : Option PanicReport × InvocationSink σ :=
  (s.failure?, { s with failure? := none })

def close (s : InvocationSink σ) : InvocationSink σ := { s with closed := true }

/-- Lets time pass; the host closes the sink at the deadline. -/
def pause (s : InvocationSink σ) (time : Duration) : InvocationSink σ :=
  let clock := s.clock.advance time
  { s with clock, closed := s.closed || clock.missed?.isSome }

end InvocationSink
end GeneratorHost
