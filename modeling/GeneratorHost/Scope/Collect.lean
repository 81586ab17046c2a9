import GeneratorHost.Scope.Table

/-! The facts that declarations add to a scope table. -/
namespace GeneratorHost.ScopeTable

/-- The path that an import prefix and one more segment make. -/
def extend (p : Path) (name : String) : Path := { p with segments := p.segments ++ [name] }

mutual

/-- Adds what an import brings into a scope. `self` names the prefix itself, and an underscore
imports no name. -/
def addUse (scope : String) (path : Path) : UseTree → ScopeTable → ScopeTable
  | .path name tree, t => addUse scope (extend path name) tree t
  | .name "self", t =>
    match path.marked.getLast? with
    | some last => t.importAs scope last path
    | none => t
  | .name name, t => t.importAs scope name (extend path name)
  | .rename _ "_", t => t
  | .rename "self" shown, t => t.importAs scope shown path
  | .rename name shown, t => t.importAs scope shown (extend path name)
  | .glob, t => t.glob scope path
  | .group trees, t => addUses scope path trees t

def addUses (scope : String) (path : Path) : List UseTree → ScopeTable → ScopeTable
  | [], t => t
  | tree :: trees, t => addUses scope path trees (addUse scope path tree t)

end

/-- Adds an external crate under its name; `self` is the crate itself. -/
def addCrate (scope name : String) (rename? : Option String) (t : ScopeTable) : ScopeTable :=
  let target : Path := if name = "self" then ⟨false, ["crate"]⟩ else ⟨true, [name]⟩
  match rename?.getD name with
  | "_" => t
  | shown => t.importAs scope shown target

/-- Adds a trait with its bounds. -/
def addTrait (scope name : String) (supertraits : List Path) (t : ScopeTable) : ScopeTable :=
  (t.declare scope name).putTrait (qualify scope name) ⟨scope, supertraits⟩

/-- Adds the scope of a function's body. -/
def addBody (scope name : String) (t : ScopeTable) : ScopeTable :=
  t.ensureScope (qualify scope name) (t.moduleOf scope) (some scope)

/-- Adds an implementation, unless it is negative, not for a plain path, or for a bare type
parameter. -/
def addImplementation (scope : String) (parameters : List String) (trait? : Option TraitRef)
    (subject : TypeRef) (t : ScopeTable) : ScopeTable :=
  match trait?, subject.path? with
  | some ⟨false, trait⟩, some path =>
    match path.marked with
    | [name] => if parameters.contains name then t else t.addImpl ⟨scope, path, trait⟩
    | _ => t.addImpl ⟨scope, path, trait⟩
  | _, _ => t

mutual

/-- Adds the facts of a declaration in a scope and of all declarations nested in it. The header and
the body of a function belong to the scope of its body; macros, imports, trait aliases and foreign
members are not looked into. -/
def collect (scope : String) : Declaration → ScopeTable → ScopeTable
  | ⟨.module name _ inline, _, _, _, body⟩, t =>
    let t := t.declare scope name
    if inline then
      collectAll (qualify scope name) body
        (t.ensureScope (qualify scope name) (qualify scope name) none)
    else t
  | ⟨.struct name, _, _, header, body⟩, t
  | ⟨.enum name, _, _, header, body⟩, t
  | ⟨.union name, _, _, header, body⟩, t
  | ⟨.typeAlias name, _, _, header, body⟩, t
  | ⟨.static name, _, _, header, body⟩, t =>
    collectAll scope body (collectAll scope header (t.declare scope name))
  | ⟨.const name, _, _, header, body⟩, t =>
    let t := if name = "_" then t else t.declare scope name
    collectAll scope body (collectAll scope header t)
  | ⟨.trait name supertraits, _, _, header, body⟩, t =>
    collectAll scope body (collectAll scope header (t.addTrait scope name supertraits))
  | ⟨.traitAlias name bounds, _, _, _, _⟩, t => t.addTrait scope name bounds
  | ⟨.fn name, _, _, header, body⟩, t =>
    let inside := qualify scope name
    collectAll inside body (collectAll inside header ((t.declare scope name).addBody scope name))
  | ⟨.method name, _, _, header, body⟩, t =>
    let inside := qualify scope name
    collectAll inside body (collectAll inside header (t.addBody scope name))
  | ⟨.impl parameters trait? subject, _, _, header, body⟩, t =>
    collectAll scope body
      (collectAll scope header (t.addImplementation scope parameters trait? subject))
  | ⟨.use isGlobal tree, _, _, _, _⟩, t => t.addUse scope ⟨isGlobal, []⟩ tree
  | ⟨.externCrate name rename?, _, _, _, _⟩, t => t.addCrate scope name rename?
  | ⟨.itemMacro (some name), _, _, _, _⟩, t
  | ⟨.foreignFn name, _, _, _, _⟩, t
  | ⟨.foreignStatic name, _, _, _, _⟩, t
  | ⟨.foreignType name, _, _, _, _⟩, t => t.declare scope name
  | ⟨.itemMacro none, _, _, _, _⟩, t
  | ⟨.other, _, _, _, _⟩, t => t
  | ⟨_, _, _, header, body⟩, t => collectAll scope body (collectAll scope header t)

def collectAll (scope : String) : List Declaration → ScopeTable → ScopeTable
  | [], t => t
  | d :: ds, t => collectAll scope ds (collect scope d t)

end

/-- Adds a file mounted at a module; one that does not parse adds its module only. -/
def addFile (module : String) (file? : Option SourceFile) (t : ScopeTable) : ScopeTable :=
  let t := t.addModule module
  match file? with
  | some file => t.collectAll module file.items
  | none => t

end GeneratorHost.ScopeTable
