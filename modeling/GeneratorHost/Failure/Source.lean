/-! Why the sources of a host could not be read. -/
namespace GeneratorHost

inductive SourceError where
  | read (path source : String)
  | outsideRoot (path root : String)
deriving DecidableEq, Repr

namespace SourceError

def message : SourceError → String
  | read path source => "Failed to read " ++ path ++ ": " ++ source
  | outsideRoot path root => path ++ " is not under the source root " ++ root

end SourceError
end GeneratorHost
