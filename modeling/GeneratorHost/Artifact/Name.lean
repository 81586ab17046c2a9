import GeneratorHost.Text.Escaped

/-! Names of generated sources, and why a sink refuses one. -/
namespace GeneratorHost

inductive SinkError where
  | duplicate (name : String)
  | invalidName (name : String)
  | io (name source : String)
deriving DecidableEq, Repr

namespace SinkError

def message : SinkError → String
  | duplicate name => "Generated source " ++ name ++ " was already added in this pass"
  | invalidName name => "Invalid generated source name " ++ Text.quoted name
  | io name source => "Failed to write generated source " ++ name ++ ": " ++ source

end SinkError

/-- Control characters of the first and the second block of code points. -/
def isControl (c : Char) : Bool := c.toNat < 0x20 || (0x7f ≤ c.toNat && c.toNat ≤ 0x9f)

/-- Whether a name is a plain file name. -/
def isArtifactName (name : String) : Bool :=
  name ≠ "" && name ≠ "." && name ≠ ".." &&
    name.toList.all fun c => c ≠ '/' && c ≠ '\\' && !isControl c

/-- A generated source. -/
structure Artifact where
  name : String
  text : String
deriving DecidableEq, Repr

end GeneratorHost
