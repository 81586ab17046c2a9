import GeneratorHost.Grammar.Parse
import GeneratorHost.Index.Symbol
import GeneratorHost.Scope.Traits

/-! The records of a source tree, every node before the nodes inside it. -/
namespace GeneratorHost.Index

/-- What surrounds a declaration: its scope, the type or trait it is a member of, and the place of
the node around it. -/
structure Surroundings where
  scope : String
  container? : Option String
  parent : Nat

namespace Surroundings

/-- Where members belong. -/
def container (s : Surroundings) : String := s.container?.getD s.scope

/-- What surrounds the declarations inside a node. Those in a body are no members of the type
around it. -/
def inside (t : ScopeTable) (s : Surroundings) (index : Nat) : Head → Surroundings
  | .struct name | .enum name | .union name | .trait name _ =>
    ⟨s.scope, some (qualify s.scope name), index⟩
  | .variant name => ⟨s.scope, some (qualify s.container name), index⟩
  | .impl _ _ subject => ⟨s.scope, some (t.resolveType s.scope subject), index⟩
  | .fn name | .method name => ⟨qualify s.scope name, none, index⟩
  | .module name .. => ⟨qualify s.scope name, s.container?, index⟩
  | _ => ⟨s.scope, s.container?, index⟩

end Surroundings

/-- How a declaration is named: in its scope, as a member, or not at all. -/
inductive Naming where
  | item (name : String)
  | member (name : String)
  | unnamed
deriving DecidableEq, Repr

def naming : Head → Naming
  | .module name .. | .struct name | .enum name | .union name | .trait name _ | .traitAlias name _
  | .fn name | .const name | .static name | .typeAlias name | .foreignFn name | .foreignStatic name
  | .foreignType name | .itemMacro (some name) => .item name
  | .method name | .assocConst name | .assocType name | .field name | .variant name => .member name
  | .impl .. | .use .. | .externCrate .. | .foreignMod | .itemMacro none | .memberMacro | .other =>
    .unnamed

/-- An attribute in a scope; a path that leads nowhere keeps its spelling. -/
def attributeData (t : ScopeTable) (scope : String) (a : Attribute) : AttributeData :=
  ⟨(t.resolve scope a.path).getD a.spelling, a.arguments⟩

/-- The traits that an item of a scope implements or, as a trait, demands. -/
def interfaces (t : ScopeTable) (kind : Kind) (name : String) : List String :=
  match kind with
  | .struct | .enum | .union => t.interfacesOf name
  | .trait | .traitAlias => t.supertraitsOf name
  | _ => []

def symbol? (t : ScopeTable) (s : Surroundings) (d : Declaration) : Option Symbol :=
  let attributes := d.attributes.map (attributeData t s.scope)
  let kind := d.head.kind
  match naming d.head with
  | .item name => some ⟨kind, name, s.scope, attributes, interfaces t kind (qualify s.scope name)⟩
  | .member name => some ⟨kind, name, s.container, attributes, []⟩
  | .unnamed => none

/-- The node of a declaration. -/
def node (tree : SourceTree) (parent index : Nat) (d : Declaration) : Node :=
  ⟨tree, index, d.head.kind, d.extent, tree.offset d.extent.start, tree.offset d.extent.stop,
    some parent⟩

mutual

/-- The records of a declaration and of all it holds, numbered from `index` on. -/
def walk (t : ScopeTable) (tree : SourceTree) (s : Surroundings) (index : Nat) :
    Declaration → List Record
  | ⟨head, extent, attributes, header, body⟩ =>
    let d : Declaration := ⟨head, extent, attributes, header, body⟩
    ⟨node tree s.parent index d, symbol? t s d⟩ ::
      walkAll t tree (s.inside t index head) (index + 1) body

def walkAll (t : ScopeTable) (tree : SourceTree) (s : Surroundings) (index : Nat) :
    List Declaration → List Record
  | [] => []
  | d :: ds =>
    let records := walk t tree s index d
    records ++ walkAll t tree s (index + records.length) ds

end

/-- A source tree with its declarations, if it parses. -/
structure ParsedTree where
  tree : SourceTree
  file? : Option SourceFile

namespace ParsedTree

def ofTree (tree : SourceTree) : ParsedTree := ⟨tree, SourceFile.ofText? tree.text⟩

/-- The record of the whole file and those of its declarations. -/
def records (t : ScopeTable) (index : Nat) (p : ParsedTree) : List Record :=
  let root : Node := ⟨p.tree, index, .file, p.tree.fullExtent, 0, p.tree.byteLength, none⟩
  let items := match p.file? with
    | some file => walkAll t p.tree ⟨p.tree.module, none, index⟩ (index + 1) file.items
    | none => []
  ⟨root, none⟩ :: items

/-- The records of all trees, numbered through. -/
def allRecords (t : ScopeTable) : Nat → List ParsedTree → List Record
  | _, [] => []
  | index, p :: ps =>
    let records := p.records t index
    records ++ allRecords t (index + records.length) ps

/-- The scope table of all trees. -/
def table (ps : List ParsedTree) : ScopeTable :=
  (ps.foldl (fun (t : ScopeTable) p => t.addFile p.tree.module p.file?) {}).finish

end ParsedTree
end GeneratorHost.Index
