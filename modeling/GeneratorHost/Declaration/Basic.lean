import GeneratorHost.Declaration.Kind
import GeneratorHost.Text.Position

/-! Declarations of a source file, with what name resolution and the index need of them. Names are
without raw marks and paths without generic arguments. -/
namespace GeneratorHost

/-- A path as written; a global one begins with a double colon. -/
structure Path where
  isGlobal : Bool
  segments : List String
deriving DecidableEq, Repr

namespace Path

/-- The segments with the global mark as a segment of its own. -/
def marked (p : Path) : List String := if p.isGlobal then "::" :: p.segments else p.segments

/-- Reads marked segments back. -/
def ofMarked : List String → Path
  | "::" :: segments => ⟨true, segments⟩
  | segments => ⟨false, segments⟩

/-- The segments between double colons. -/
def text (p : Path) : String := "::".intercalate p.marked

end Path

/-- An attribute: its path, the path's spelling and the text of its arguments. -/
structure Attribute where
  path : Path
  spelling : String
  arguments : String
deriving DecidableEq, Repr

/-- What an import brings into scope. -/
inductive UseTree where
  | path (name : String) (tree : UseTree)
  | name (name : String)
  | rename (name shown : String)
  | glob
  | group (trees : List UseTree)
deriving Repr

/-- A type as written: its path if it is plainly one, and its text. -/
structure TypeRef where
  path? : Option Path
  text : String
deriving DecidableEq, Repr

/-- A trait that an implementation provides, or with a negative mark refuses. -/
structure TraitRef where
  negative : Bool
  path : Path
deriving DecidableEq, Repr

/-- What a node declares. Members of traits, implementations and foreign blocks have heads of
their own; a tuple field is named by its position. -/
inductive Head where
  /-- A module, with whether its name is written raw and whether its items follow. -/
  | module (name : String) (raw inline : Bool)
  | struct (name : String)
  | enum (name : String)
  | union (name : String)
  | trait (name : String) (supertraits : List Path)
  | traitAlias (name : String) (bounds : List Path)
  | impl (parameters : List String) (trait? : Option TraitRef) (subject : TypeRef)
  | fn (name : String)
  | const (name : String)
  | static (name : String)
  | typeAlias (name : String)
  | use (isGlobal : Bool) (tree : UseTree)
  | externCrate (name : String) (rename? : Option String)
  | foreignMod
  | itemMacro (name? : Option String)
  | method (name : String)
  | assocConst (name : String)
  | assocType (name : String)
  | memberMacro
  | foreignFn (name : String)
  | foreignStatic (name : String)
  | foreignType (name : String)
  | field (name : String)
  | variant (name : String)
  | other
deriving Repr

namespace Head

def kind : Head → Kind
  | module .. => .module
  | struct _ => .struct
  | enum _ => .enum
  | union _ => .union
  | trait .. => .trait
  | traitAlias .. => .traitAlias
  | impl .. => .impl
  | fn _ => .fn
  | const _ => .const
  | static _ => .static
  | typeAlias _ => .typeAlias
  | use .. => .use
  | externCrate .. => .externCrate
  | foreignMod => .foreignMod
  | itemMacro _ | memberMacro => .itemMacro
  | method _ => .method
  | assocConst _ => .assocConst
  | assocType _ => .assocType
  | foreignFn _ => .foreignFn
  | foreignStatic _ => .foreignStatic
  | foreignType _ => .foreignType
  | field _ => .field
  | variant _ => .variant
  | other => .other

end Head

/-- A declaration with the stretch of text it covers. The header holds declarations nested in its
attributes, generics and signature; the body holds its fields, variants, members and the items of
its block or value. Both are in reading order. -/
structure Declaration where
  head : Head
  extent : Extent
  attributes : List Attribute
  header : List Declaration
  body : List Declaration
deriving Repr

/-- The declarations of a file that parses. -/
structure SourceFile where
  items : List Declaration
deriving Repr

end GeneratorHost
