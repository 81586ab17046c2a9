import GeneratorHost.Proofs.Grammar.WellFormed
import GeneratorHost.Proofs.Scope.Fallback

/-! What the collector finds stands in scopes that are there: in the one it began with, or in one that the
module or the function around it has added. -/
namespace GeneratorHost
open ScopeTable

namespace ScopeFact

/-- The scope that a fact stands in. -/
def around? : ScopeFact → Option String
  | module _ => none
  | body scope _ | item scope _ | binding scope _ _ | glob scope _ => some scope
  | trait _ fact => some fact.scope
  | impl fact => some fact.scope

/-- The scope of a module or of a function's body that a fact adds. -/
def added? : ScopeFact → Option String
  | module name => some name
  | body scope name => some (qualify scope name)
  | _ => none

theorem opens?_of_added? {f : ScopeFact} {scope : String} (h : f.added? = some scope) :
    ∃ place, f.opens? scope = some place := by
  cases f <;> cases h <;> exact ⟨_, if_pos rfl⟩

end ScopeFact

/-! ### Facts of a declaration by itself -/

mutual

/-- An import adds names and glob imports to its scope, and nothing else. -/
theorem mem_useFacts {f : ScopeFact} {scope : String} {path : Path} {tree : UseTree}
    (h : f ∈ useFacts scope path tree) :
    (∃ name target, f = .binding scope name target) ∨ ∃ target, f = .glob scope target := by
  cases tree with
  | path name tree =>
    rw [useFacts] at h
    exact mem_useFacts h
  | group trees =>
    rw [useFacts] at h
    exact mem_useFactsAll h
  | glob =>
    rw [useFacts, List.mem_singleton] at h
    exact .inr ⟨path, h⟩
  | name name =>
    by_cases hn : name = "self"
    · subst hn
      rw [useFacts] at h
      cases hl : path.marked.getLast? with
      | none => simp [hl] at h
      | some last =>
        rw [hl, List.mem_singleton] at h
        exact .inl ⟨last, path, h⟩
    · rw [useFacts, List.mem_singleton] at h
      · exact .inl ⟨name, extend path name, h⟩
      · exact hn
  | rename name shown =>
    by_cases hs : shown = "_"
    · subst hs
      simp [useFacts] at h
    · by_cases hn : name = "self"
      · subst hn
        rw [useFacts, List.mem_singleton] at h
        · exact .inl ⟨shown, path, h⟩
        · exact hs
      · rw [useFacts, List.mem_singleton] at h
        · exact .inl ⟨shown, extend path name, h⟩
        · exact hs
        · exact hn

theorem mem_useFactsAll {f : ScopeFact} {scope : String} {path : Path} {trees : List UseTree}
    (h : f ∈ useFactsAll scope path trees) :
    (∃ name target, f = .binding scope name target) ∨ ∃ target, f = .glob scope target := by
  cases trees with
  | nil => simp [useFactsAll] at h
  | cons tree trees =>
    rw [useFactsAll, List.mem_append] at h
    rcases h with h | h
    · exact mem_useFacts h
    · exact mem_useFactsAll h

end

theorem mem_crateFacts {f : ScopeFact} {scope name : String} {rename? : Option String}
    (h : f ∈ Head.crateFacts scope name rename?) : ∃ shown target, f = .binding scope shown target := by
  unfold Head.crateFacts at h
  generalize rename?.getD name = shown at h
  by_cases hs : shown = "_"
  · subst hs
    simp at h
  · simp only [List.mem_singleton] at h
    exact ⟨shown, _, h⟩

namespace Head

theorem around?_of_mem_facts {f : ScopeFact} {scope : String} {head : Head} (h : f ∈ head.facts scope) :
    ∀ around ∈ f.around?, around = scope := by
  cases head with
  | use isGlobal tree =>
    rcases mem_useFacts h with ⟨name, target, rfl⟩ | ⟨target, rfl⟩ <;> simp [ScopeFact.around?]
  | externCrate name rename? =>
    obtain ⟨shown, target, rfl⟩ := mem_crateFacts h
    simp [ScopeFact.around?]
  | impl parameters trait? subject =>
    simp only [facts, List.mem_map, Option.mem_toList] at h
    obtain ⟨fact, hf, rfl⟩ := h
    unfold implFact? at hf
    grind [ScopeFact.around?]
  | itemMacro name? => cases name? <;> simp_all [facts, ScopeFact.around?]
  | _ => grind [facts, ScopeFact.around?, traitFact?]

/-- A declaration adds no other scope than the one for what it holds. -/
theorem added?_of_mem_facts {f : ScopeFact} {scope : String} {head : Head} (h : f ∈ head.facts scope) :
    ∀ inner ∈ f.added?, inner = head.innerScope scope := by
  cases head with
  | use isGlobal tree =>
    rcases mem_useFacts h with ⟨name, target, rfl⟩ | ⟨target, rfl⟩ <;> simp [ScopeFact.added?]
  | externCrate name rename? =>
    obtain ⟨shown, target, rfl⟩ := mem_crateFacts h
    simp [ScopeFact.added?]
  | impl parameters trait? subject =>
    simp only [facts, List.mem_map, Option.mem_toList] at h
    obtain ⟨fact, hf, rfl⟩ := h
    simp [ScopeFact.added?]
  | itemMacro name? => cases name? <;> simp_all [facts, ScopeFact.added?]
  | _ => grind [facts, ScopeFact.added?, traitFact?, innerScope]

/-- What the collector looks into stands in the scope of the declaration, or in one that it adds. -/
theorem innerScope_added {head : Head} (scope : String) (h : head.opensHeader ∨ head.opensBody) :
    head.innerScope scope = scope ∨ ∃ f ∈ head.facts scope, f.added? = some (head.innerScope scope) := by
  cases head with
  | module name raw inline =>
    cases inline with
    | false => simp [opensHeader, opensBody] at h
    | true => exact .inr ⟨.module (qualify scope name), by simp [facts], rfl⟩
  | fn name => exact .inr ⟨.body scope name, by simp [facts], rfl⟩
  | method name => exact .inr ⟨.body scope name, by simp [facts], rfl⟩
  | _ => exact .inl rfl

end Head

/-! ### Facts in turn -/

namespace ScopeTable

theorem hasScope_of_added? {f : ScopeFact} {fs : List ScopeFact} (hf : f ∈ fs) {scope : String}
    (h : f.added? = some scope) (t : ScopeTable) : (t.applyAll fs).hasScope scope := by
  obtain ⟨place, hp⟩ := ScopeFact.opens?_of_added? h
  have hm : place ∈ fs.filterMap (ScopeFact.opens? scope) := List.mem_filterMap.mpr ⟨f, hf, hp⟩
  rw [hasScope_eq, place?_applyAll, Option.isSome_or, Bool.or_eq_true]
  exact .inr (List.isSome_head?.mpr (List.ne_nil_of_mem hm))

/-- Every function body is added while its scope is there. -/
def Grounded : List ScopeFact → ScopeTable → Prop
  | [], _ => True
  | f :: fs, t => (∀ scope name, f = .body scope name → t.hasScope scope) ∧ Grounded fs (f.apply t)

theorem grounded_append {fs gs : List ScopeFact} {t : ScopeTable} :
    Grounded (fs ++ gs) t ↔ Grounded fs t ∧ Grounded gs (t.applyAll fs) := by
  induction fs generalizing t with
  | nil => exact (and_iff_right trivial).symm
  | cons f fs ih => rw [List.cons_append, Grounded, Grounded, ih, and_assoc, applyAll_cons]

theorem Rooted.applyAll {t : ScopeTable} (ht : t.Rooted) {fs : List ScopeFact} (h : Grounded fs t) :
    (t.applyAll fs).Rooted := by
  induction fs generalizing t with
  | nil => exact ht
  | cons f fs ih => exact ih (ht.apply h.1) h.2

/-- Every fact is added while the scope that it stands in is there. -/
def Seated : List ScopeFact → ScopeTable → Prop
  | [], _ => True
  | f :: fs, t => (∀ around ∈ f.around?, t.hasScope around) ∧ Seated fs (f.apply t)

theorem seated_append {fs gs : List ScopeFact} {t : ScopeTable} :
    Seated (fs ++ gs) t ↔ Seated fs t ∧ Seated gs (t.applyAll fs) := by
  induction fs generalizing t with
  | nil => exact (and_iff_right trivial).symm
  | cons f fs ih => rw [List.cons_append, Seated, Seated, ih, and_assoc, applyAll_cons]

theorem Seated.grounded {fs : List ScopeFact} {t : ScopeTable} (h : Seated fs t) : Grounded fs t := by
  induction fs generalizing t with
  | nil => trivial
  | cons f fs ih =>
    refine ⟨?_, ih h.2⟩
    rintro scope name rfl
    exact h.1 scope rfl

/-- Facts that all stand in a scope that is there. -/
theorem seated_of_around {fs : List ScopeFact} {scope : String} {t : ScopeTable} (ht : t.hasScope scope)
    (h : ∀ f ∈ fs, ∀ around ∈ f.around?, around = scope) : Seated fs t := by
  induction fs generalizing t with
  | nil => trivial
  | cons f fs ih =>
    rw [List.forall_mem_cons] at h
    refine ⟨?_, ih (hasScope_applyAll ht [f]) h.2⟩
    intro around ha
    rwa [h.1 around ha]

end ScopeTable

/-! ### Facts of declarations -/

open Declaration

theorem collected_eq (scope : String) (d : Declaration) :
    collected scope d =
      (scope, d) :: ((if d.head.opensHeader then collectedAll (d.head.innerScope scope) d.header else []) ++
        if d.head.opensBody then collectedAll (d.head.innerScope scope) d.body else []) := by
  obtain ⟨head, extent, attributes, header, body⟩ := d
  simp only [nested]

theorem collectedAll_cons (scope : String) (d : Declaration) (ds : List Declaration) :
    collectedAll scope (d :: ds) = collected scope d ++ collectedAll scope ds := by
  simp only [nestedAll]

theorem hasScope_innerScope {head : Head} {scope : String} {t : ScopeTable} (ht : t.hasScope scope)
    (h : head.opensHeader ∨ head.opensBody) : (t.applyAll (head.facts scope)).hasScope (head.innerScope scope) := by
  rcases Head.innerScope_added scope h with hs | ⟨f, hf, hs⟩
  · rw [hs]
    exact hasScope_applyAll ht _
  · exact hasScope_of_added? hf hs t

mutual

theorem seated_collected {scope : String} (d : Declaration) {t : ScopeTable} (ht : t.hasScope scope) :
    Seated (facts (collected scope d)) t := by
  obtain ⟨head, extent, attributes, header, body⟩ := d
  rw [collected_eq, facts_cons, facts_append, seated_append, seated_append]
  have hi (h : head.opensHeader ∨ head.opensBody) := hasScope_innerScope ht h
  refine ⟨seated_of_around ht fun f hf => Head.around?_of_mem_facts hf, ?_, ?_⟩
  · by_cases h : head.opensHeader
    · rw [if_pos h]
      exact seated_collectedAll header (hi (.inl h))
    · rw [if_neg h]
      trivial
  · by_cases h : head.opensBody
    · rw [if_pos h]
      exact seated_collectedAll body (hasScope_applyAll (hi (.inr h)) _)
    · rw [if_neg h]
      trivial

theorem seated_collectedAll {scope : String} (ds : List Declaration) {t : ScopeTable} (ht : t.hasScope scope) :
    Seated (facts (collectedAll scope ds)) t := by
  cases ds with
  | nil => trivial
  | cons d ds =>
    rw [collectedAll_cons, facts_append, seated_append]
    exact ⟨seated_collected d ht, seated_collectedAll ds (hasScope_applyAll ht _)⟩

end

/-- The scopes that facts add for modules and function bodies. -/
def addedScopes (fs : List ScopeFact) : List String := fs.filterMap ScopeFact.added?

mutual

/-- What the collector finds stands in the scope it began with or in one that was added. -/
theorem scope_of_mem_collected {scope : String} {d : Declaration} {x : String × Declaration}
    (h : x ∈ collected scope d) : x.1 = scope ∨ x.1 ∈ addedScopes (facts (collected scope d)) := by
  obtain ⟨head, extent, attributes, header, body⟩ := d
  have hi {ds : List Declaration} (ho : head.opensHeader ∨ head.opensBody)
      (hx : x.1 = head.innerScope scope ∨ x.1 ∈ addedScopes (facts (collectedAll (head.innerScope scope) ds))) :
      x.1 = scope ∨ x.1 ∈ addedScopes (head.facts scope) ∨
        x.1 ∈ addedScopes (facts (collectedAll (head.innerScope scope) ds)) := by
    rcases hx with hx | hx
    · rcases Head.innerScope_added scope ho with hs | ⟨f, hf, hs⟩
      · exact .inl (hx.trans hs)
      · exact .inr (.inl (List.mem_filterMap.mpr ⟨f, hf, hx ▸ hs⟩))
    · exact .inr (.inr hx)
  rw [collected_eq, List.mem_cons, List.mem_append] at h
  rw [collected_eq, facts_cons, facts_append, addedScopes, List.filterMap_append, List.filterMap_append,
    List.mem_append, List.mem_append]
  rcases h with rfl | h | h
  · exact .inl rfl
  · split_ifs at h with ho
    · rw [if_pos ho]
      have := hi (.inl ho) (scope_of_mem_collectedAll h)
      tauto
    · cases h
  · split_ifs at h with ho
    · rw [if_pos ho]
      have := hi (.inr ho) (scope_of_mem_collectedAll h)
      tauto
    · cases h

theorem scope_of_mem_collectedAll {scope : String} {ds : List Declaration} {x : String × Declaration}
    (h : x ∈ collectedAll scope ds) : x.1 = scope ∨ x.1 ∈ addedScopes (facts (collectedAll scope ds)) := by
  cases ds with
  | nil => cases h
  | cons d ds =>
    rw [collectedAll_cons, List.mem_append] at h
    rw [collectedAll_cons, facts_append, addedScopes, List.filterMap_append, List.mem_append]
    rcases h with h | h
    · have := scope_of_mem_collected h
      tauto
    · have := scope_of_mem_collectedAll h
      tauto

end

/-- A fact stands in the scope that the collector began with or in one that was added. -/
theorem around?_of_mem_collectedAll {scope : String} {ds : List Declaration} {f : ScopeFact}
    (h : f ∈ facts (collectedAll scope ds)) {around : String} (ha : f.around? = some around) :
    around = scope ∨ around ∈ addedScopes (facts (collectedAll scope ds)) := by
  obtain ⟨x, hx, hf⟩ := List.mem_flatMap.mp h
  rw [Head.around?_of_mem_facts hf around ha]
  exact scope_of_mem_collectedAll hx

/-- What is nested in a well-formed declaration is well-formed. -/
theorem Declaration.WellFormed.of_mem_nested {header body : Head → Bool} {scope : String} {d : Declaration}
    (hd : d.WellFormed) {x : String × Declaration} (hx : x ∈ d.nested header body scope) : x.2.WellFormed := by
  induction hd generalizing scope with
  | mk named header_items header_formed body_admitted body_formed ih_header ih_body =>
    obtain rfl | ⟨e, he | he, _, hx⟩ := eq_or_exists_of_mem_nested hx
    · exact .mk named header_items header_formed body_admitted body_formed
    · exact ih_header e he hx
    · exact ih_body e he hx

/-! ### Files -/

namespace ScopeTable

theorem mem_moduleFactsUpTo {fuel : Nat} {module : String} {f : ScopeFact} (h : f ∈ moduleFactsUpTo fuel module) :
    (∃ name, f = .module name) ∨ ∃ scope name, f = .item scope name := by
  induction fuel generalizing module with
  | zero => cases h
  | succ fuel ih =>
    rw [moduleFactsUpTo, List.mem_cons] at h
    rcases h with rfl | h
    · exact .inl ⟨module, rfl⟩
    · split at h
      · rw [List.mem_append, List.mem_singleton] at h
        rcases h with h | rfl
        · exact ih h
        · exact .inr ⟨_, _, rfl⟩
      · cases h

theorem length_lt_of_cutLastColons {module : String} {before behind : List Char}
    (h : Text.cutLastColons module.toList = some (before, behind)) :
    (String.ofList before).length < module.length := by
  have := congrArg List.length (Text.eq_append_of_cutLastColons h)
  simp only [String.length_toList, List.length_append, List.length_cons] at this
  rw [String.length_ofList]
  omega

theorem module_mem_self {fuel : Nat} {module : String} (hf : 0 < fuel) :
    .module module ∈ moduleFactsUpTo fuel module := by
  obtain ⟨fuel, rfl⟩ := Nat.exists_eq_add_one.mpr hf
  rw [moduleFactsUpTo]
  exact List.mem_cons_self

/-- What is declared in a module around a file is declared in a module that the file adds. -/
theorem module_mem_moduleFactsUpTo {fuel : Nat} {module scope name : String}
    (hf : module.length < fuel) (h : .item scope name ∈ moduleFactsUpTo fuel module) :
    .module scope ∈ moduleFactsUpTo fuel module := by
  induction fuel generalizing module with
  | zero => cases h
  | succ fuel ih =>
    rw [moduleFactsUpTo, List.mem_cons] at h ⊢
    cases hc : Text.cutLastColons module.toList with
    | none =>
      rw [hc] at h
      simp at h
    | some cut =>
      obtain ⟨before, behind⟩ := cut
      have hl : (String.ofList before).length < fuel := by
        have := length_lt_of_cutLastColons hc
        omega
      rw [hc] at h
      simp only [reduceCtorEq, List.mem_append, List.mem_singleton, ScopeFact.item.injEq, false_or] at h
      refine .inr (List.mem_append_left _ ?_)
      rcases h with h | ⟨rfl, -⟩
      · exact ih hl h
      · exact module_mem_self (Nat.zero_lt_of_lt hl)

/-- A module is declared in the module around it when that one has been added. -/
theorem seated_moduleFactsUpTo {fuel : Nat} {module : String} (hf : module.length < fuel) (t : ScopeTable) :
    Seated (moduleFactsUpTo fuel module) t := by
  induction fuel generalizing module t with
  | zero => trivial
  | succ fuel ih =>
    rw [moduleFactsUpTo]
    refine ⟨by simp [ScopeFact.around?], ?_⟩
    cases hc : Text.cutLastColons module.toList with
    | none => trivial
    | some cut =>
      obtain ⟨before, behind⟩ := cut
      have hl : (String.ofList before).length < fuel := by
        have := length_lt_of_cutLastColons hc
        omega
      refine seated_append.mpr ⟨ih hl _, ?_, trivial⟩
      rintro around ⟨⟩
      exact hasScope_of_added? (module_mem_self (Nat.zero_lt_of_lt hl)) rfl _

theorem seated_fileFacts (module : String) (file? : Option SourceFile) (t : ScopeTable) :
    Seated (fileFacts module file?) t := by
  rw [fileFacts, seated_append]
  refine ⟨seated_moduleFactsUpTo (Nat.lt_succ_self _) t, ?_⟩
  cases file? with
  | none => trivial
  | some file =>
    exact seated_collectedAll file.items (hasScope_of_added? (module_mem_self (Nat.succ_pos _)) rfl t)

theorem grounded_fileFacts (module : String) (file? : Option SourceFile) (t : ScopeTable) :
    Grounded (fileFacts module file?) t :=
  (seated_fileFacts module file? t).grounded

end ScopeTable
end GeneratorHost
