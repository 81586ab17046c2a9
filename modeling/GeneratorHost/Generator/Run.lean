import GeneratorHost.Generator.Panic
import GeneratorHost.Generator.View

/-! What a generator does while it runs: it asks the host to take sources, sends notes, lets time
pass, and ends with a value, an error or a panic. -/
namespace GeneratorHost

inductive Run (α : Type) where
  | done (value : α)
  | failed (error : ReturnedError)
  | panicked (panic : Panic)
  /-- Asks the host to take a source; the answer tells whether it did. -/
  | add (name text : String) (next : Bool → Run α)
  | report (text : String) (next : Run α)
  | pause (time : Duration) (next : Run α)

namespace Run

def bind {α β : Type} : Run α → (α → Run β) → Run β
  | done value, f => f value
  | failed error, _ => failed error
  | panicked panic, _ => panicked panic
  | add name text next, f => add name text fun accepted => (next accepted).bind f
  | report text next, f => report text (next.bind f)
  | pause time next, f => pause time (next.bind f)

instance : Monad Run where
  pure := done
  bind := bind

/-- The run up to its end or its panic. -/
def caught {α : Type} : Run α → Run (Except Panic α)
  | done value => done (.ok value)
  | failed error => failed error
  | panicked panic => done (.error panic)
  | add name text next => add name text fun accepted => (next accepted).caught
  | report text next => report text next.caught
  | pause time next => pause time next.caught

/-- Sends a note. -/
def note (text : String) : Run Unit := report text (done ())

end Run

/-- What a generator is given to write with: it counts the sources that the host took. -/
structure GeneratorContext where
  added : Nat := 0
deriving DecidableEq, Repr

namespace GeneratorContext

/-- Message of the panic where the host takes no source of a name. -/
def refusal (name : String) : String :=
  "generated source `" ++ name ++ "` was rejected by the host (duplicate or reserved name)"

/-- Adds a source, or panics where the host does not take it. -/
def addSource (site : PanicSite) (name text : String) (c : GeneratorContext) : Run GeneratorContext :=
  .add name text fun accepted =>
    if accepted then .done ⟨c.added + 1⟩ else .panicked { payload := .owned (refusal name), site }

end GeneratorContext

/-- A generator: what making it, running it and dropping it do. -/
structure Generator where
  /-- The panic of its default value, if that panics. -/
  construction? : Option Panic := none
  execute : List DeclarationView → Run Unit
  /-- The panic of its end, if that panics. -/
  disposal? : Option Panic := none

end GeneratorHost
