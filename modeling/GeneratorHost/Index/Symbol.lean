import GeneratorHost.Host.SourceTree
import GeneratorHost.Scope.Table

/-! Records of a declaration index: nodes of source trees and the symbols they stand for. -/
namespace GeneratorHost

/-- An attribute by its resolved path, with the text of its arguments. -/
structure AttributeData where
  path : String
  arguments : String
deriving DecidableEq, Repr

/-- Resolved description of a declaration. -/
structure Symbol where
  kind : Kind
  name : String
  /-- The module, body, type or trait around the declaration. -/
  nameSpace : String
  attributes : List AttributeData
  /-- Every trait the declaration implements or demands, sorted. -/
  interfaces : List String
deriving DecidableEq, Repr

namespace Symbol

def qualifiedName (s : Symbol) : String := qualify s.nameSpace s.name

/-- Number of attributes with a resolved path. -/
def attributeCount (s : Symbol) (path : String) : Nat := (s.attributes.map (·.path)).count path

def implements (s : Symbol) (trait : String) : Bool := s.interfaces.contains trait

end Symbol

/-- A node of a source tree: its place in the walk, its extent in characters and in bytes, and the
place of the node around it. -/
structure Node where
  tree : SourceTree
  index : Nat
  kind : Kind
  extent : Extent
  start : Nat
  stop : Nat
  parent? : Option Nat

namespace Node

def text (n : Node) : String := n.tree.slice n.start n.stop

end Node

/-- A node and its symbol, if it has one. -/
structure Record where
  node : Node
  symbol? : Option Symbol

/-- A declaration that can be compiled and run as a generator. -/
structure Candidate where
  node : Node
  symbol : Symbol

namespace Candidate

def name (c : Candidate) : String := c.symbol.qualifiedName

end Candidate
end GeneratorHost
