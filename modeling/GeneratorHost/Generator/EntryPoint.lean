/-! Names under which a unit exports the entry points of a generator. -/
namespace GeneratorHost

/-- What a unit exports for a generator. -/
inductive EntryPoint where
  | construct
  | execute
  | release
deriving DecidableEq, Repr

namespace EntryPoint

def all : List EntryPoint := [construct, execute, release]

def start : EntryPoint → String
  | construct => "selfgen_construct__"
  | execute => "selfgen_on_execute__"
  | release => "selfgen_release__"

/-- A double colon becomes two underscores. -/
def joinSegments : List Char → List Char
  | ':' :: ':' :: cs => '_' :: '_' :: joinSegments cs
  | c :: cs => c :: joinSegments cs
  | [] => []

/-- Whether a character may stand in a symbol as it is. -/
def isPlain (c : Char) : Bool := c.isAlphanum || c = '_'

/-- A qualified name as part of a symbol. -/
def mangle (name : String) : String :=
  String.ofList ((joinSegments name.toList).map fun c => if isPlain c then c else '_')

/-- The symbol of an entry point for a generator's qualified name. -/
def symbol (e : EntryPoint) (name : String) : String := e.start ++ mangle name

end EntryPoint
end GeneratorHost
