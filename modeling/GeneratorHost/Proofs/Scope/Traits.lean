import GeneratorHost.Proofs.Scope.Closure
import GeneratorHost.Proofs.Scope.Declares

/-! The implementations and traits of a table are those of the declarations that were collected. -/
namespace GeneratorHost

/-- What stands under a name last. -/
def lastNamed {α : Type} (name : String) (entries : List (String × α)) : Option α :=
  ((entries.filter fun (n, _) => n = name).getLast?).map Prod.snd

namespace ScopeFact

def impl? : ScopeFact → Option ImplFact
  | impl fact => some fact
  | _ => none

def trait? : ScopeFact → Option (String × TraitFact)
  | trait name fact => some (name, fact)
  | _ => none

end ScopeFact

namespace ScopeTable

@[simp] theorem impls_ensureScope (name module : String) (fallback? : Option String) (t : ScopeTable) :
    (t.ensureScope name module fallback?).impls = t.impls := by
  unfold ensureScope
  split <;> rfl

@[simp] theorem traits_ensureScope (name module : String) (fallback? : Option String) (t : ScopeTable) :
    (t.ensureScope name module fallback?).traits = t.traits := by
  unfold ensureScope
  split <;> rfl

theorem impls_apply (f : ScopeFact) (t : ScopeTable) : (f.apply t).impls = t.impls ++ f.impl?.toList := by
  cases f with
  | module | body => simp [ScopeFact.apply, ScopeFact.impl?, addBody]
  | impl => rfl
  | _ => exact (List.append_nil _).symm

theorem impls_applyAll (fs : List ScopeFact) (t : ScopeTable) :
    (t.applyAll fs).impls = t.impls ++ fs.filterMap ScopeFact.impl? := by
  induction fs generalizing t with
  | nil => simp
  | cons f fs ih =>
    rw [applyAll_cons, ih, impls_apply, List.append_assoc, List.filterMap_cons]
    cases f.impl? <;> rfl

theorem lastNamed_concat {α : Type} (name : String) (entries : List (String × α)) (n : String) (value : α) :
    lastNamed name (entries ++ [(n, value)]) = if n = name then some value else lastNamed name entries := by
  unfold lastNamed
  by_cases h : n = name <;> simp [h]

theorem trait?_putTrait (path : String) (fact : TraitFact) (t : ScopeTable) (name : String) :
    (t.putTrait path fact).trait? name = if path = name then some fact else t.trait? name := by
  by_cases h : path = name
  · subst h
    simp [putTrait, ScopeTable.trait?]
  · rw [if_neg h]
    exact lookup_putEntry_of_ne (Ne.symm h) _ _

theorem trait?_apply_of_none {f : ScopeFact} (h : f.trait? = none) (t : ScopeTable) (name : String) :
    (f.apply t).trait? name = t.trait? name := by
  cases f with
  | module | body => simp [ScopeFact.apply, addBody, ScopeTable.trait?]
  | trait => cases h
  | _ => rfl

/-- The last trait of a path is the one that a table keeps. -/
theorem trait?_applyAll (fs : List ScopeFact) (t : ScopeTable) (name : String) :
    (t.applyAll fs).trait? name = (lastNamed name (fs.filterMap ScopeFact.trait?)).or (t.trait? name) := by
  induction fs using List.reverseRecOn with
  | nil => rfl
  | append_singleton fs f ih =>
    rw [applyAll_append, applyAll_cons, applyAll_nil, List.filterMap_append, List.filterMap_cons]
    cases f with
    | trait path fact =>
      simp only [ScopeFact.apply, trait?_putTrait, ScopeFact.trait?, List.filterMap_nil, lastNamed_concat, ih]
      by_cases h : path = name <;> simp [h]
    | _ =>
      rw [trait?_apply_of_none rfl, ih]
      simp only [ScopeFact.trait?, List.filterMap_nil, List.append_nil]

/-! ### Finished tables -/

section
variable {t u : ScopeTable}

private theorem scope?_congr (h : t.scopes = u.scopes) : t.scope? = u.scope? := by
  funext name
  rw [scope?, h, scope?]

private theorem moduleOf_congr (h : t.scopes = u.scopes) : t.moduleOf = u.moduleOf := by
  funext scope
  rw [moduleOf, scope?_congr h, moduleOf]

private theorem lookupChain_congr (h : t.scopes = u.scopes) (look : Lookup) (name : String) (fuel : Nat) :
    lookupChain look t name fuel = lookupChain look u name fuel := by
  induction fuel with
  | zero => rfl
  | succ fuel ih =>
    funext scope skip?
    rw [lookupChain, lookupChain, scope?_congr h, ih]

private theorem resolveVia_congr (h : t.scopes = u.scopes) (look : Lookup) :
    resolveVia look t = resolveVia look u := by
  funext scope path skip?
  unfold resolveVia
  simp only [moduleOf_congr h, lookupChain_congr h, h]

private theorem lookupLocal_congr (h : t.scopes = u.scopes) (depth : Nat) :
    lookupLocal t depth = lookupLocal u depth := by
  induction depth with
  | zero => rfl
  | succ depth ih =>
    funext scope name skip?
    unfold lookupLocal
    simp only [scope?_congr h, resolveVia_congr h, ih]

/-- Paths resolve by the scopes of a table alone. -/
theorem resolve_congr (h : t.scopes = u.scopes) : t.resolve = u.resolve := by
  funext scope path
  rw [resolve, resolve, resolveWithin, resolveWithin, lookupLocal_congr h, resolveVia_congr h]

end

@[simp] theorem resolve_finish (t : ScopeTable) : t.finish.resolve = t.resolve := resolve_congr rfl

theorem mem_implemented_finish {t : ScopeTable} {type trait : String} :
    (type, trait) ∈ t.finish.implemented ↔
      ∃ fact ∈ t.impls, t.resolve fact.scope fact.subject = some type ∧
        t.resolve fact.scope fact.trait = some trait := by
  simp only [finish, List.mem_filterMap]
  refine exists_congr fun fact => and_congr_right fun _ => ?_
  cases t.resolve fact.scope fact.subject <;> cases t.resolve fact.scope fact.trait <;> simp

end ScopeTable

/-! ### Facts of declarations -/

/-- Facts that are neither implementations nor traits. -/
def Silent (fs : List ScopeFact) : Prop := ∀ f ∈ fs, f.impl? = none ∧ f.trait? = none

theorem Silent.append {fs gs : List ScopeFact} (hf : Silent fs) (hg : Silent gs) : Silent (fs ++ gs) :=
  List.forall_mem_append.mpr ⟨hf, hg⟩

mutual

theorem silent_useFacts (scope : String) (path : Path) (tree : UseTree) :
    Silent (useFacts scope path tree) := by
  cases tree with
  | path name tree =>
    rw [useFacts]
    exact silent_useFacts scope (ScopeTable.extend path name) tree
  | group trees =>
    rw [useFacts]
    exact silent_useFactsAll scope path trees
  | glob => simp [useFacts, Silent, ScopeFact.impl?, ScopeFact.trait?]
  | name name =>
    by_cases h : name = "self"
    · subst h
      simp only [useFacts]
      cases path.marked.getLast? <;> simp [Silent, ScopeFact.impl?, ScopeFact.trait?]
    · simp [useFacts, Silent, ScopeFact.impl?, ScopeFact.trait?]
  | rename name shown =>
    by_cases hs : shown = "_"
    · subst hs
      simp [useFacts, Silent]
    · by_cases hn : name = "self"
      · subst hn
        simp [useFacts, Silent, ScopeFact.impl?, ScopeFact.trait?]
      · simp [useFacts, Silent, ScopeFact.impl?, ScopeFact.trait?]

theorem silent_useFactsAll (scope : String) (path : Path) (trees : List UseTree) :
    Silent (useFactsAll scope path trees) := by
  cases trees with
  | nil => simp [useFactsAll, Silent]
  | cons tree trees =>
    rw [useFactsAll]
    exact (silent_useFacts scope path tree).append (silent_useFactsAll scope path trees)

end

theorem Silent.filterMap_impl? {fs : List ScopeFact} (h : Silent fs) : fs.filterMap ScopeFact.impl? = [] :=
  List.filterMap_eq_nil_iff.mpr fun f hf => (h f hf).1

theorem Silent.filterMap_trait? {fs : List ScopeFact} (h : Silent fs) : fs.filterMap ScopeFact.trait? = [] :=
  List.filterMap_eq_nil_iff.mpr fun f hf => (h f hf).2

theorem silent_crateFacts (scope name : String) (rename? : Option String) :
    Silent (Head.crateFacts scope name rename?) := by
  unfold Head.crateFacts
  generalize rename?.getD name = shown
  by_cases h : shown = "_"
  · subst h
    simp [Silent]
  · simp [Silent, ScopeFact.impl?, ScopeFact.trait?]

theorem silent_moduleFactsUpTo (fuel : Nat) (module : String) :
    Silent (ScopeTable.moduleFactsUpTo fuel module) := by
  induction fuel generalizing module with
  | zero => simp [ScopeTable.moduleFactsUpTo, Silent]
  | succ fuel ih =>
    rw [ScopeTable.moduleFactsUpTo, ← List.singleton_append]
    refine .append (by simp [Silent, ScopeFact.impl?, ScopeFact.trait?]) ?_
    split
    · exact (ih _).append (by simp [Silent, ScopeFact.impl?, ScopeFact.trait?])
    · simp [Silent]

theorem filterMap_impl?_headFacts (scope : String) (head : Head) :
    (head.facts scope).filterMap ScopeFact.impl? = (head.implFact? scope).toList := by
  cases head with
  | module name raw inline => cases inline <;> rfl
  | const name => by_cases h : name = "_" <;> simp [Head.facts, Head.implFact?, h, ScopeFact.impl?]
  | itemMacro name? => cases name? <;> rfl
  | impl parameters trait? subject =>
    rw [Head.facts]
    cases (Head.impl parameters trait? subject).implFact? scope <;> rfl
  | use isGlobal tree => exact (silent_useFacts _ _ _).filterMap_impl?
  | externCrate name rename? => exact (silent_crateFacts _ _ _).filterMap_impl?
  | _ => rfl

theorem filterMap_trait?_headFacts (scope : String) (head : Head) :
    (head.facts scope).filterMap ScopeFact.trait? = (head.traitFact? scope).toList := by
  cases head with
  | module name raw inline => cases inline <;> rfl
  | const name => by_cases h : name = "_" <;> simp [Head.facts, Head.traitFact?, h, ScopeFact.trait?]
  | itemMacro name? => cases name? <;> rfl
  | impl parameters trait? subject =>
    rw [Head.facts]
    cases (Head.impl parameters trait? subject).implFact? scope <;> rfl
  | use isGlobal tree => exact (silent_useFacts _ _ _).filterMap_trait?
  | externCrate name rename? => exact (silent_crateFacts _ _ _).filterMap_trait?
  | _ => rfl

namespace Declaration

/-- Implementations that count, in visiting order. -/
def implFacts (found : List (String × Declaration)) : List ImplFact :=
  found.filterMap fun (scope, d) => d.head.implFact? scope

/-- Traits by their paths, in visiting order. -/
def traitFacts (found : List (String × Declaration)) : List (String × TraitFact) :=
  found.filterMap fun (scope, d) => d.head.traitFact? scope

theorem filterMap_impl?_facts (found : List (String × Declaration)) :
    (facts found).filterMap ScopeFact.impl? = implFacts found := by
  induction found with
  | nil => rfl
  | cons x found ih =>
    obtain ⟨scope, d⟩ := x
    rw [facts_cons, List.filterMap_append, filterMap_impl?_headFacts, ih, implFacts, implFacts,
      List.filterMap_cons]
    dsimp only
    cases d.head.implFact? scope <;> rfl

theorem filterMap_trait?_facts (found : List (String × Declaration)) :
    (facts found).filterMap ScopeFact.trait? = traitFacts found := by
  induction found with
  | nil => rfl
  | cons x found ih =>
    obtain ⟨scope, d⟩ := x
    rw [facts_cons, List.filterMap_append, filterMap_trait?_headFacts, ih, traitFacts, traitFacts,
      List.filterMap_cons]
    dsimp only
    cases d.head.traitFact? scope <;> rfl

end Declaration
end GeneratorHost
