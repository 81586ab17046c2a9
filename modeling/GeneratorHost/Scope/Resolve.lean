import GeneratorHost.Scope.Collect

/-! Resolution of paths through items, imports and glob imports. -/
namespace GeneratorHost.ScopeTable

/-- The deepest nesting of imports that is followed. -/
def maxDepth : Nat := 16

/-- A path's remaining segments below a first name. -/
def join (first : String) (rest : List String) : String := "::".intercalate (first :: rest)

/-- A way to look a name up in a single scope; an import of the skipped name is not followed. -/
abbrev Lookup := (scope name : String) → (skip? : Option String) → Option String

/-- Looks a name up in a scope and the scopes it falls back to. Only the first skips a name, and
no chain is longer than there are scopes. -/
def lookupChain (look : Lookup) (t : ScopeTable) (name : String) :
    Nat → String → Option String → Option String
  | 0, _, _ => none
  | fuel + 1, scope, skip? =>
    match look scope name skip? with
    | some found => some found
    | none =>
      match (t.scope? scope).bind (·.fallback?) with
      | some around => lookupChain look t name fuel around none
      | none => none

/-- Follows the segments behind a resolved module; an unknown member is taken literally. -/
def descend (look : Lookup) (current : String) : List String → Option String
  | [] => some current
  | "super" :: rest =>
    match parentModule? current with
    | some parent => descend look parent rest
    | none => none
  | segment :: rest => descend look ((look current segment none).getD (qualify current segment)) rest

/-- Resolves a path as written in a scope. A path whose first name the crate does not declare is
taken literally. -/
def resolveVia (look : Lookup) (t : ScopeTable) (scope : String) (path : Path) (skip? : Option String) :
    Option String :=
  match path with
  | ⟨true, []⟩ | ⟨false, []⟩ => none
  | ⟨true, first :: rest⟩ => some (join first rest)
  | ⟨false, "crate" :: rest⟩ => descend look "crate" rest
  | ⟨false, "self" :: rest⟩ => descend look (t.moduleOf scope) rest
  | ⟨false, "super" :: rest⟩ => (parentModule? (t.moduleOf scope)).bind (descend look · rest)
  | ⟨false, first :: rest⟩ =>
    match lookupChain look t first (t.scopes.length + 1) scope skip? with
    | some found => descend look found rest
    | none => some (join first rest)

/-- Looks a name up in a single scope with `depth` levels of imports left: its items, then its
imports, then its glob imports in order. -/
def lookupLocal (t : ScopeTable) : Nat → Lookup
  | 0, _, _, _ => none
  | depth + 1, scope, name, skip? =>
    let resolve (path : Path) (skip? : Option String) : Option String :=
      match depth with
      | 0 => none
      | _ + 1 => resolveVia (lookupLocal t depth) t scope path skip?
    match t.scope? scope with
    | none => none
    | some s =>
      if s.items.contains name then some (qualify scope name)
      else
        match (if skip? = some name then none else s.aliases.lookup name) with
        | some target => resolve target (some name)
        | none =>
          s.globs.findSome? fun path =>
            match resolve path none with
            | some module => if module = scope then none else lookupLocal t depth module name none
            | none => none

/-- Resolves a path with at most `bound` nested imports followed. -/
def resolveWithin (bound : Nat) (t : ScopeTable) (scope : String) (path : Path) : Option String :=
  resolveVia (lookupLocal t (bound + 1)) t scope path none

/-- Resolves a path as written in a scope. -/
def resolve (t : ScopeTable) (scope : String) (path : Path) : Option String :=
  resolveWithin maxDepth t scope path

/-- Follows imports in the text of an absolute path. -/
def canonicalize (t : ScopeTable) (path : String) : String :=
  (t.resolve "crate" (.ofMarked ((Text.splitColons path.toList).map String.ofList))).getD path

/-- The path of a plain type, and the text of any other. -/
def resolveType (t : ScopeTable) (scope : String) (type : TypeRef) : String :=
  match type.path? with
  | some path => (t.resolve scope path).getD path.text
  | none => type.text

end GeneratorHost.ScopeTable
