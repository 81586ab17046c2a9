import GeneratorHost.Host.Compilation
import GeneratorHost.Index.Walk

/-! The declaration index of a host: all records and the candidates among them. -/
namespace GeneratorHost

structure DeclarationIndex where
  records : List Record
  candidates : List Candidate
  /-- Resolved path of the marker attribute. -/
  marker : String
  /-- Resolved path of the generator trait. -/
  interface : String

namespace DeclarationIndex

/-- A struct, enum or union is a candidate if it carries the marker exactly once and implements
the generator trait. -/
def candidate? (marker interface : String) (r : Record) : Option Candidate :=
  match r.symbol? with
  | some symbol =>
    if r.node.kind.isClassLike && symbol.attributeCount marker = 1 && symbol.implements interface then
      some ⟨r.node, symbol⟩
    else none
  | none => none

open Index in
/-- The index of parsed trees. -/
def ofParsed (support : SupportModule) (ps : List ParsedTree) : DeclarationIndex :=
  let table := ParsedTree.table ps
  let marker := table.canonicalize support.markerPath
  let interface := table.canonicalize support.interfacePath
  let records := ParsedTree.allRecords table 0 ps
  ⟨records, records.filterMap (candidate? marker interface), marker, interface⟩

def build (c : HostCompilation) (support : SupportModule) : DeclarationIndex :=
  ofParsed support (c.trees.map Index.ParsedTree.ofTree)

/-- The first record whose symbol has a qualified name. -/
def find? (i : DeclarationIndex) (name : String) : Option Record :=
  i.records.find? fun r => (r.symbol?.map (·.qualifiedName)) = some name

/-- What a qualified name stands for: a candidate, or else the first record of that name. -/
def named? (i : DeclarationIndex) (name : String) : Option Candidate :=
  (i.candidates.find? (·.name = name)).orElse fun _ =>
    (i.find? name).bind fun r => r.symbol?.map fun symbol => ⟨r.node, symbol⟩

end DeclarationIndex
end GeneratorHost
