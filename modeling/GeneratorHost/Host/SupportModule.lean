import GeneratorHost.Host.SourceTree
import GeneratorHost.Host.SupportSource

/-! The support module as it is mounted in a host: the marker attribute and the generator trait
are its items. -/
namespace GeneratorHost

structure SupportModule where
  name : String
  edition : Edition
deriving DecidableEq, Repr

namespace SupportModule

def defaultName : String := "selfgen_rt"

instance : Inhabited SupportModule := ⟨⟨defaultName, default⟩⟩

/-- Version of the boundary between hosts and units. -/
def version : Nat := 1

def module (s : SupportModule) : String := "crate::" ++ s.name

def fileName (s : SupportModule) : String := s.name ++ ".rs"

/-- The path under which the module offers the marker attribute. -/
def markerPath (s : SupportModule) : String := s.module ++ "::generator"

/-- The path of the trait that generators implement. -/
def interfacePath (s : SupportModule) : String := s.module ++ "::SourceGenerator"

def tree (s : SupportModule) : SourceTree :=
  { path := s.fileName, module := s.module, text := supportSource, edition := s.edition }

end SupportModule
end GeneratorHost
