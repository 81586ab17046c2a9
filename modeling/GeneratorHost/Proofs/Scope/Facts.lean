import GeneratorHost.Scope.Traits

/-! The facts that files add to a scope table, as a list. Adding them one after the other is what the
collector does. -/
namespace GeneratorHost

/-- A single change of a scope table. -/
inductive ScopeFact where
  | module (name : String)
  /-- The scope of a function's body. -/
  | body (scope name : String)
  | item (scope name : String)
  | binding (scope name : String) (target : Path)
  | glob (scope : String) (target : Path)
  | trait (name : String) (fact : TraitFact)
  | impl (fact : ImplFact)

namespace ScopeFact

def apply (t : ScopeTable) : ScopeFact → ScopeTable
  | module name => t.ensureScope name name none
  | body scope name => t.addBody scope name
  | item scope name => t.declare scope name
  | binding scope name target => t.importAs scope name target
  | glob scope target => t.glob scope target
  | trait name fact => t.putTrait name fact
  | impl fact => t.addImpl fact

end ScopeFact

namespace ScopeTable

/-- Adds facts in order. -/
def applyAll (facts : List ScopeFact) (t : ScopeTable) : ScopeTable := facts.foldl ScopeFact.apply t

@[simp] theorem applyAll_nil (t : ScopeTable) : applyAll [] t = t := rfl

@[simp] theorem applyAll_cons (f : ScopeFact) (fs : List ScopeFact) (t : ScopeTable) :
    applyAll (f :: fs) t = applyAll fs (f.apply t) := rfl

@[simp] theorem applyAll_append (fs gs : List ScopeFact) (t : ScopeTable) :
    applyAll (fs ++ gs) t = applyAll gs (applyAll fs t) :=
  List.foldl_append

end ScopeTable

open ScopeTable

/-! ### Imports -/

mutual

/-- What an import adds in a scope. -/
def useFacts (scope : String) (path : Path) : UseTree → List ScopeFact
  | .path name tree => useFacts scope (extend path name) tree
  | .name "self" =>
    match path.marked.getLast? with
    | some last => [.binding scope last path]
    | none => []
  | .name name => [.binding scope name (extend path name)]
  | .rename _ "_" => []
  | .rename "self" shown => [.binding scope shown path]
  | .rename name shown => [.binding scope shown (extend path name)]
  | .glob => [.glob scope path]
  | .group trees => useFactsAll scope path trees

def useFactsAll (scope : String) (path : Path) : List UseTree → List ScopeFact
  | [] => []
  | tree :: trees => useFacts scope path tree ++ useFactsAll scope path trees

end

mutual

theorem addUse_eq (scope : String) (path : Path) (tree : UseTree) (t : ScopeTable) :
    t.addUse scope path tree = t.applyAll (useFacts scope path tree) := by
  cases tree with
  | path name tree =>
    simp only [addUse, useFacts]
    exact addUse_eq scope (extend path name) tree t
  | group trees =>
    simp only [addUse, useFacts]
    exact addUses_eq scope path trees t
  | glob => simp only [addUse, useFacts, applyAll_cons, applyAll_nil, ScopeFact.apply]
  | name name =>
    by_cases h : name = "self"
    · subst h
      simp only [addUse, useFacts]
      cases path.marked.getLast? <;> rfl
    · simp only [addUse, useFacts, applyAll_cons, applyAll_nil, ScopeFact.apply]
  | rename name shown =>
    by_cases hs : shown = "_"
    · subst hs
      simp only [addUse, useFacts, applyAll_nil]
    · by_cases hn : name = "self"
      · subst hn
        simp only [addUse, useFacts, applyAll_cons, applyAll_nil, ScopeFact.apply]
      · simp only [addUse, useFacts, applyAll_cons, applyAll_nil, ScopeFact.apply]

theorem addUses_eq (scope : String) (path : Path) (trees : List UseTree) (t : ScopeTable) :
    t.addUses scope path trees = t.applyAll (useFactsAll scope path trees) := by
  cases trees with
  | nil => simp only [addUses, useFactsAll, applyAll_nil]
  | cons tree trees =>
    simp only [addUses, useFactsAll, applyAll_append]
    rw [addUse_eq, addUses_eq]

end

/-! ### Declarations -/

namespace Head

/-- The scope of what a declaration holds. -/
def innerScope (scope : String) : Head → String
  | module name .. | fn name | method name => qualify scope name
  | _ => scope

/-- Whether the collector looks into the header. -/
def opensHeader : Head → Bool
  | module .. | traitAlias .. | use .. | externCrate .. | itemMacro _ | foreignFn _ | foreignStatic _
  | foreignType _ | other => false
  | _ => true

/-- Whether the collector looks into the body. -/
def opensBody : Head → Bool
  | module _ _ inline => inline
  | traitAlias .. | use .. | externCrate .. | itemMacro _ | foreignFn _ | foreignStatic _
  | foreignType _ | other => false
  | _ => true

/-- The implementation that counts: not negative, for a plain path, and not for a bare parameter. -/
def implFact? (scope : String) : Head → Option ImplFact
  | impl parameters (some ⟨false, provided⟩) ⟨some subject, _⟩ =>
    if parameters.any ([·] = subject.marked) then none else some ⟨scope, subject, provided⟩
  | _ => none

/-- The trait or trait alias that is declared, by its path. -/
def traitFact? (scope : String) : Head → Option (String × TraitFact)
  | trait name bounds | traitAlias name bounds => some (qualify scope name, ⟨scope, bounds⟩)
  | _ => none

def crateFacts (scope name : String) (rename? : Option String) : List ScopeFact :=
  let target : Path := if name = "self" then ⟨false, ["crate"]⟩ else ⟨true, [name]⟩
  match rename?.getD name with
  | "_" => []
  | shown => [.binding scope shown target]

/-- What a declaration adds by itself. -/
def facts (scope : String) (head : Head) : List ScopeFact :=
  match head with
  | module name _ inline =>
    if inline then [.item scope name, .module (qualify scope name)] else [.item scope name]
  | struct name | enum name | union name | typeAlias name | static name | itemMacro (some name)
  | foreignFn name | foreignStatic name | foreignType name => [.item scope name]
  | const name => if name = "_" then [] else [.item scope name]
  | trait name _ | traitAlias name _ =>
    .item scope name :: (head.traitFact? scope).toList.map fun (path, fact) => .trait path fact
  | fn name => [.item scope name, .body scope name]
  | method name => [.body scope name]
  | impl .. => (head.implFact? scope).toList.map .impl
  | use isGlobal tree => useFacts scope ⟨isGlobal, []⟩ tree
  | externCrate name rename? => crateFacts scope name rename?
  | _ => []

end Head

mutual

/-- A declaration and all that is nested in it where headers and bodies are opened, each with the
scope it stands in, in visiting order. -/
def Declaration.nested (header body : Head → Bool) (scope : String) :
    Declaration → List (String × Declaration)
  | ⟨head, extent, attributes, inHeader, inBody⟩ =>
    (scope, ⟨head, extent, attributes, inHeader, inBody⟩) ::
      ((if header head then Declaration.nestedAll header body (head.innerScope scope) inHeader else []) ++
        if body head then Declaration.nestedAll header body (head.innerScope scope) inBody else [])

def Declaration.nestedAll (header body : Head → Bool) (scope : String) :
    List Declaration → List (String × Declaration)
  | [] => []
  | d :: ds => d.nested header body scope ++ Declaration.nestedAll header body scope ds

end

namespace Declaration

/-- What the collector finds in a declaration, itself first. -/
abbrev collected : String → Declaration → List (String × Declaration) :=
  nested Head.opensHeader Head.opensBody

/-- What the collector finds in declarations, each with its scope. -/
abbrev collectedAll : String → List Declaration → List (String × Declaration) :=
  nestedAll Head.opensHeader Head.opensBody

/-- What declarations and all that the collector finds in them add. -/
def facts (found : List (String × Declaration)) : List ScopeFact :=
  found.flatMap fun (scope, d) => d.head.facts scope

@[simp] theorem facts_nil : facts [] = [] := rfl

@[simp] theorem facts_cons (scope : String) (d : Declaration) (found : List (String × Declaration)) :
    facts ((scope, d) :: found) = d.head.facts scope ++ facts found :=
  List.flatMap_cons

@[simp] theorem facts_append (found more : List (String × Declaration)) :
    facts (found ++ more) = facts found ++ facts more :=
  List.flatMap_append

end Declaration

open Declaration

theorem addImplementation_eq (scope : String) (parameters : List String) (trait? : Option TraitRef)
    (subject : TypeRef) (t : ScopeTable) :
    t.addImplementation scope parameters trait? subject =
      t.applyAll ((Head.impl parameters trait? subject).facts scope) := by
  obtain ⟨path?, text⟩ := subject
  rcases trait? with _ | ⟨negative, provided⟩
  · cases path? <;> rfl
  · cases negative <;> cases path?
    · rfl
    · rename_i path
      simp only [addImplementation, Head.facts, Head.implFact?]
      generalize path.marked = segments
      rcases segments with _ | ⟨name, _ | ⟨_, _⟩⟩
      · simp [ScopeFact.apply]
      · by_cases h : parameters.contains name <;> simp_all [ScopeFact.apply]
      · simp [ScopeFact.apply]
    · rfl
    · rfl

theorem addCrate_eq (scope name : String) (rename? : Option String) (t : ScopeTable) :
    t.addCrate scope name rename? = t.applyAll (Head.crateFacts scope name rename?) := by
  simp only [addCrate, Head.crateFacts]
  generalize rename?.getD name = shown
  by_cases h : shown = "_"
  · subst h
    rfl
  · simp only [applyAll_cons, applyAll_nil, ScopeFact.apply]

mutual

theorem collect_eq (scope : String) (d : Declaration) (t : ScopeTable) :
    t.collect scope d = t.applyAll (facts (collected scope d)) := by
  obtain ⟨head, extent, attributes, header, body⟩ := d
  have hh (scope : String) (t : ScopeTable) := collectAll_eq scope header t
  have hb (scope : String) (t : ScopeTable) := collectAll_eq scope body t
  cases head with
  | module name raw inline =>
    cases inline <;> simp [collect, nested, Head.facts, Head.opensHeader, Head.opensBody,
      Head.innerScope, hb, ScopeFact.apply]
  | const name =>
    by_cases h : name = "_" <;> simp [collect, nested, Head.facts, Head.opensHeader,
      Head.opensBody, Head.innerScope, hh, hb, ScopeFact.apply, h]
  | itemMacro name? =>
    cases name? <;> simp [collect, nested, Head.facts, Head.opensHeader, Head.opensBody, ScopeFact.apply]
  | impl parameters trait? subject =>
    simp only [collect, nested, Head.opensHeader, Head.opensBody, Head.innerScope, hh, hb,
      addImplementation_eq, if_true, facts_cons, facts_append, applyAll_append]
  | _ => simp [collect, nested, Head.facts, Head.opensHeader, Head.opensBody, Head.innerScope, hh, hb,
      ScopeFact.apply, Head.traitFact?, addTrait, addUse_eq, addCrate_eq]

theorem collectAll_eq (scope : String) (ds : List Declaration) (t : ScopeTable) :
    t.collectAll scope ds = t.applyAll (facts (collectedAll scope ds)) := by
  cases ds with
  | nil => simp only [collectAll, nestedAll, facts_nil, applyAll_nil]
  | cons d ds =>
    simp only [collectAll, nestedAll, facts_append, applyAll_append]
    rw [collect_eq, collectAll_eq]

end

theorem mem_nested_self (header body : Head → Bool) (scope : String) (d : Declaration) :
    (scope, d) ∈ d.nested header body scope := by
  cases d
  exact List.mem_cons_self

theorem mem_nestedAll {header body : Head → Bool} {x : String × Declaration} {scope : String}
    {ds : List Declaration} :
    x ∈ nestedAll header body scope ds ↔ ∃ d ∈ ds, x ∈ d.nested header body scope := by
  induction ds with
  | nil => simp [nestedAll]
  | cons d ds ih => simp [nestedAll, ih]

/-- What is nested in a declaration is the declaration itself or nested in what stands in it. -/
theorem eq_or_exists_of_mem_nested {header body : Head → Bool} {x : String × Declaration} {scope : String}
    {d : Declaration} (hx : x ∈ d.nested header body scope) :
    x = (scope, d) ∨ ∃ e, (e ∈ d.header ∨ e ∈ d.body) ∧ ∃ inner, x ∈ e.nested header body inner := by
  obtain ⟨head, extent, attributes, inHeader, inBody⟩ := d
  rw [nested, List.mem_cons, List.mem_append] at hx
  obtain rfl | hx | hx := hx
  · exact .inl rfl
  · split at hx
    · obtain ⟨e, he, hx⟩ := mem_nestedAll.mp hx
      exact .inr ⟨e, .inl he, _, hx⟩
    · cases hx
  · split at hx
    · obtain ⟨e, he, hx⟩ := mem_nestedAll.mp hx
      exact .inr ⟨e, .inr he, _, hx⟩
    · cases hx

theorem facts_subset_of_mem {scope : String} {d : Declaration} {ds : List Declaration} (hd : d ∈ ds) :
    facts (collected scope d) ⊆ facts (collectedAll scope ds) := by
  intro f hf
  obtain ⟨x, hx, hf⟩ := List.mem_flatMap.mp hf
  exact List.mem_flatMap.mpr ⟨x, mem_nestedAll.mpr ⟨d, hd, hx⟩, hf⟩

/-! ### Files -/

namespace ScopeTable

/-- A module and the modules around it. -/
def moduleFactsUpTo : Nat → String → List ScopeFact
  | 0, _ => []
  | fuel + 1, module =>
    .module module :: match Text.cutLastColons module.toList with
      | some (before, behind) =>
        moduleFactsUpTo fuel (String.ofList before) ++ [.item (String.ofList before) (String.ofList behind)]
      | none => []

/-- What a file mounted at a module adds. -/
def fileFacts (module : String) (file? : Option SourceFile) : List ScopeFact :=
  moduleFactsUpTo (module.length + 1) module ++ file?.elim [] (facts <| collectedAll module ·.items)

private theorem addModuleUpTo_eq (fuel : Nat) (module : String) (t : ScopeTable) :
    addModuleUpTo fuel module t = t.applyAll (moduleFactsUpTo fuel module) := by
  induction fuel generalizing module t with
  | zero => rfl
  | succ fuel ih =>
    simp only [addModuleUpTo, moduleFactsUpTo, applyAll_cons]
    cases Text.cutLastColons module.toList with
    | none => rfl
    | some cut =>
      simp only [ih, applyAll_append]
      rfl

theorem addFile_eq (module : String) (file? : Option SourceFile) (t : ScopeTable) :
    t.addFile module file? = t.applyAll (fileFacts module file?) := by
  unfold addFile addModule fileFacts
  rw [addModuleUpTo_eq, applyAll_append]
  cases file? with
  | none => rfl
  | some file => exact collectAll_eq module file.items _

end ScopeTable
end GeneratorHost
