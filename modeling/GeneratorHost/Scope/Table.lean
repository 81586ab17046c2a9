import GeneratorHost.Declaration.Basic
import GeneratorHost.Text.Split

/-! Scopes, imports and trait facts of a crate. -/
namespace GeneratorHost

/-- A scope's own names. The scope of a function body falls back to the scope around it. -/
structure Scope where
  /-- The nearest enclosing module, itself for the scope of a module. -/
  module : String
  fallback? : Option String
  items : List String := []
  /-- Imported names, each with the path it stands for. -/
  aliases : List (String × Path) := []
  globs : List Path := []
deriving Repr

/-- The bounds a trait was declared with, and where. -/
structure TraitFact where
  scope : String
  supertraits : List Path
deriving Repr

/-- An implementation of a trait for a plain type, and where it stands. -/
structure ImplFact where
  scope : String
  subject : Path
  trait : Path
deriving Repr

/-- Scopes, traits and implementations by name; later entries replace earlier ones. -/
structure ScopeTable where
  scopes : List (String × Scope) := []
  traits : List (String × TraitFact) := []
  impls : List ImplFact := []
  /-- Types with the traits they implement, both resolved. -/
  implemented : List (String × String) := []
deriving Repr

/-- Replaces the entry of a key, or adds one at the end. -/
def putEntry {α : Type} (key : String) (value : α) : List (String × α) → List (String × α)
  | [] => [(key, value)]
  | (k, v) :: rest => if k = key then (key, value) :: rest else (k, v) :: putEntry key value rest

/-- The name of a scope or item inside another. -/
def qualify (scope name : String) : String := scope ++ "::" ++ name

/-- The module around a module, unless it is a root. -/
def parentModule? (module : String) : Option String :=
  (Text.cutLastColons module.toList).map fun (before, _) => String.ofList before

namespace ScopeTable

def scope? (t : ScopeTable) (name : String) : Option Scope := t.scopes.lookup name

def trait? (t : ScopeTable) (name : String) : Option TraitFact := t.traits.lookup name

def hasScope (t : ScopeTable) (name : String) : Bool := (t.scope? name).isSome

/-- The nearest module of a scope; an unknown scope is its own. -/
def moduleOf (t : ScopeTable) (scope : String) : String :=
  ((t.scope? scope).map (·.module)).getD scope

/-- Adds a scope unless there is one of that name. -/
def ensureScope (name module : String) (fallback? : Option String) (t : ScopeTable) : ScopeTable :=
  if t.hasScope name then t else { t with scopes := putEntry name { module, fallback? } t.scopes }

/-- Changes a scope; one that is missing is a module of its own. -/
def updateScope (name : String) (change : Scope → Scope) (t : ScopeTable) : ScopeTable :=
  let scope := (t.scope? name).getD { module := name, fallback? := none }
  { t with scopes := putEntry name (change scope) t.scopes }

/-- Declares an item in a scope. -/
def declare (scope name : String) : ScopeTable → ScopeTable :=
  updateScope scope fun s => if s.items.contains name then s else { s with items := s.items ++ [name] }

/-- Imports a path under a name; a later import of the name replaces it. -/
def importAs (scope name : String) (target : Path) : ScopeTable → ScopeTable :=
  updateScope scope fun s => { s with aliases := putEntry name target s.aliases }

/-- Imports all names of a path. -/
def glob (scope : String) (target : Path) : ScopeTable → ScopeTable :=
  updateScope scope fun s => { s with globs := s.globs ++ [target] }

def putTrait (name : String) (fact : TraitFact) (t : ScopeTable) : ScopeTable :=
  { t with traits := putEntry name fact t.traits }

def addImpl (fact : ImplFact) (t : ScopeTable) : ScopeTable := { t with impls := t.impls ++ [fact] }

/-- Adds the scope of a module and of every module around it, each visible from its parent. -/
def addModuleUpTo : Nat → String → ScopeTable → ScopeTable
  | 0, _, t => t
  | fuel + 1, module, t =>
    let t := t.ensureScope module module none
    match Text.cutLastColons module.toList with
    | some (before, behind) =>
      let parent := String.ofList before
      (addModuleUpTo fuel parent t).declare parent (String.ofList behind)
    | none => t

/-- A module's name shortens with every step to the module around it. -/
def addModule (module : String) (t : ScopeTable) : ScopeTable :=
  addModuleUpTo (module.length + 1) module t

end ScopeTable
end GeneratorHost
