import GeneratorHost.Proofs.Scope.Grounded

/-! The scopes of a table make a tree, whatever files and modules are added to it and however their names collide:
function bodies hang below the scope around them and modules below the module that declares them. -/
namespace GeneratorHost

/-! ### Scopes below a scope -/

/-- A scope, or one that is named below it. -/
def Within (outer inner : String) : Prop := inner = outer ∨ ∃ rest, inner = qualify outer rest

namespace Within

theorem refl (scope : String) : Within scope scope := .inl rfl

theorem qualify {outer inner : String} (h : Within outer inner) (name : String) :
    Within outer (GeneratorHost.qualify inner name) := by
  rcases h with rfl | ⟨rest, rfl⟩
  · exact .inr ⟨name, rfl⟩
  · refine .inr ⟨GeneratorHost.qualify rest name, ?_⟩
    simp only [GeneratorHost.qualify, String.append_assoc]

theorem innerScope {outer inner : String} (h : Within outer inner) (head : Head) :
    Within outer (head.innerScope inner) := by
  cases head with
  | module name | fn name | method name => exact h.qualify name
  | _ => exact h

theorem iff_isPrefix {outer inner : String} :
    Within outer inner ↔ inner = outer ∨ (outer.toList ++ [':', ':']) <+: inner.toList := by
  refine or_congr Iff.rfl ⟨?_, ?_⟩
  · rintro ⟨rest, rfl⟩
    rw [qualify_toList]
    exact ⟨rest.toList, by simp⟩
  · rintro ⟨rest, h⟩
    refine ⟨String.ofList rest, String.toList_injective ?_⟩
    rw [qualify_toList, ← h]
    simp

instance (outer inner : String) : Decidable (Within outer inner) := decidable_of_iff _ iff_isPrefix.symm

end Within

namespace Head

/-- Only an inline module makes a scope that falls back to none. -/
theorem eq_module_of_mem_facts {scope inner : String} {head : Head} (h : .module inner ∈ head.facts scope) :
    ∃ name raw, head = .module name raw true ∧ inner = qualify scope name := by
  cases head with
  | use isGlobal tree => rcases mem_useFacts h with ⟨name, target, hf⟩ | ⟨target, hf⟩ <;> cases hf
  | externCrate name rename? =>
    obtain ⟨shown, target, hf⟩ := mem_crateFacts h
    cases hf
  | itemMacro name? => cases name? <;> simp [facts] at h
  | _ => grind [facts, traitFact?]

/-- Only a function or a method makes a scope that falls back, to the one it stands in. -/
theorem eq_fn_of_mem_facts {scope around name : String} {head : Head} (h : .body around name ∈ head.facts scope) :
    around = scope ∧ (head = .fn name ∨ head = .method name) := by
  cases head with
  | use isGlobal tree => rcases mem_useFacts h with ⟨name, target, hf⟩ | ⟨target, hf⟩ <;> cases hf
  | externCrate name rename? =>
    obtain ⟨shown, target, hf⟩ := mem_crateFacts h
    cases hf
  | itemMacro name? => cases name? <;> simp [facts] at h
  | _ => grind [facts, traitFact?]

end Head

namespace ScopeTable
open Declaration

/-- A scope is there and falls back to another one: it is that of a function's body. -/
def FallsBack (t : ScopeTable) (scope around : String) : Prop := t.place? scope = some (some around)

/-- A scope is there and falls back to none. -/
def IsModule (t : ScopeTable) (scope : String) : Prop := t.place? scope = some none

instance (t : ScopeTable) (scope around : String) : Decidable (t.FallsBack scope around) :=
  inferInstanceAs (Decidable (t.place? scope = some (some around)))

instance (t : ScopeTable) (scope : String) : Decidable (t.IsModule scope) :=
  inferInstanceAs (Decidable (t.place? scope = some none))

/-- What stands in front of the last double colon of a name is a scope that declares what stands behind it. -/
def Lists (t : ScopeTable) (scope : String) : Prop :=
  ∀ before behind, Text.cutLastColons scope.toList = some (before, behind) →
    t.Declares (String.ofList before) (String.ofList behind)

variable {t : ScopeTable} {scope around : String}

theorem fallsBack_iff : t.FallsBack scope around ↔ (t.scopeOf scope).fallback? = some around :=
  fallback?_scopeOf_eq_some_iff.symm

theorem hasScope_iff : t.hasScope scope ↔ t.IsModule scope ∨ ∃ around, t.FallsBack scope around := by
  rw [hasScope_eq, IsModule]
  unfold FallsBack
  cases t.place? scope with
  | none => simp
  | some place => cases place <;> simp

theorem IsModule.fallback?_eq_none (h : t.IsModule scope) : (t.scopeOf scope).fallback? = none := by
  apply Option.eq_none_iff_forall_ne_some.mpr
  intro around ha
  rw [← fallsBack_iff, FallsBack, h] at ha
  cases ha

theorem Lists.mono {u : ScopeTable} (h : t.Lists scope)
    (hd : ∀ {scope name}, t.Declares scope name → u.Declares scope name) : u.Lists scope :=
  fun before behind hc => hd (h before behind hc)

/-! ### Tables that come about -/

/-- The tables that come about by adding files and modules, and by resolving the implementations in between. -/
inductive Made : ScopeTable → Prop
  | empty : Made {}
  | file {t : ScopeTable} (before : Made t) (module : String) {file? : Option SourceFile}
      (items : ∀ file ∈ file?, ∀ d ∈ file.items, d.IsItem) : Made (t.addFile module file?)
  | module {t : ScopeTable} (before : Made t) (module : String) : Made (t.addModule module)
  | finish {t : ScopeTable} (before : Made t) : Made t.finish

/-- What holds of a table between the files: scopes are rooted, modules are declared by the scope around them, and
function bodies are named by an identifier. -/
structure Grown (t : ScopeTable) : Prop extends Rooted t where
  listed : ∀ {scope}, t.IsModule scope → t.Lists scope
  identifier : ∀ {scope around}, t.FallsBack scope around → ∃ name, IsItemName name ∧ scope = qualify around name

theorem Grown.empty : Grown {} where
  toRooted := .empty
  listed h := nomatch h
  identifier h := nomatch h

/-! ### What a file adds -/

/-- A scope that facts open as a module is added as one, if each of them stands in a scope that is there. -/
theorem module_mem_of_isModule {fs : List ScopeFact} (h : Seated fs t) (hn : t.place? scope = none)
    (hm : (t.applyAll fs).IsModule scope) : .module scope ∈ fs := by
  induction fs generalizing t with
  | nil =>
    rw [applyAll_nil, IsModule, hn] at hm
    cases hm
  | cons f fs ih =>
    have hp := place?_apply f t scope
    rw [hn, Option.none_or] at hp
    cases ho : f.opens? scope with
    | none => exact List.mem_cons_of_mem _ (ih h.2 (hp.trans ho) hm)
    | some place =>
      rw [applyAll_cons, IsModule, place?_applyAll, hp, ho, Option.some_or, Option.some.injEq] at hm
      subst hm
      have hu : ¬ t.hasScope scope := by
        rw [hasScope_eq, hn]
        exact Bool.false_ne_true
      cases f with
      | module name =>
        simp only [ScopeFact.opens?, Option.ite_none_right_eq_some, and_true] at ho
        subst ho
        exact List.mem_cons_self
      | body outer name => simp [ScopeFact.opens?] at ho
      | item outer | binding outer | glob outer =>
        simp only [ScopeFact.opens?, Option.ite_none_right_eq_some, and_true] at ho
        subst ho
        exact absurd (h.1 _ rfl) hu
      | _ => cases ho

/-- A scope that facts make fall back is the body of a function among them. -/
theorem body_mem_of_fallsBack {fs : List ScopeFact} (hn : t.place? scope = none)
    (hf : (t.applyAll fs).FallsBack scope around) : ∃ name, scope = qualify around name ∧ .body around name ∈ fs := by
  rw [FallsBack, place?_applyAll, hn, Option.none_or] at hf
  obtain ⟨f, hm, ho⟩ := List.mem_filterMap.mp (List.mem_of_head? hf)
  cases f with
  | body outer name =>
    simp only [ScopeFact.opens?, Option.ite_none_right_eq_some, Option.some.injEq] at ho
    obtain ⟨rfl, rfl⟩ := ho
    exact ⟨name, rfl, hm⟩
  | _ => simp [ScopeFact.opens?] at ho

/-- The modules around a file are declared in each other. -/
theorem item_mem_moduleFactsUpTo {fuel : Nat} {module : String} (hf : module.length < fuel)
    (h : .module scope ∈ moduleFactsUpTo fuel module) {before behind : List Char}
    (hc : Text.cutLastColons scope.toList = some (before, behind)) :
    .item (String.ofList before) (String.ofList behind) ∈ moduleFactsUpTo fuel module := by
  induction fuel generalizing module with
  | zero => cases h
  | succ fuel ih =>
    rw [moduleFactsUpTo, List.mem_cons, ScopeFact.module.injEq] at h
    rw [moduleFactsUpTo, List.mem_cons]
    right
    rcases h with rfl | h
    · rw [hc]
      exact List.mem_append_right _ (List.mem_singleton.mpr rfl)
    · cases hm : Text.cutLastColons module.toList with
      | none =>
        rw [hm] at h
        cases h
      | some cut =>
        obtain ⟨outer, name⟩ := cut
        have hl := length_lt_of_cutLastColons hm
        rw [hm] at h
        simp only [List.mem_append, List.mem_singleton, reduceCtorEq, or_false] at h
        exact List.mem_append_left _ (ih (by omega) h)

section
variable {ds : List Declaration} {module : String}

private theorem exists_head_of_mem {f : ScopeFact} (hds : ∀ d ∈ ds, d.IsItem) (h : f ∈ facts (collectedAll module ds)) :
    ∃ outer head, f ∈ Head.facts outer head ∧ head.WellNamed ∧ Head.facts outer head ⊆ facts (collectedAll module ds) := by
  obtain ⟨⟨outer, d⟩, hx, hf⟩ := List.mem_flatMap.mp h
  obtain ⟨e, he, hd⟩ := mem_nestedAll.mp hx
  refine ⟨outer, d.head, hf, ((hds e he).formed.of_mem_nested hd).named, ?_⟩
  exact fun g hg => List.mem_flatMap.mpr ⟨_, hx, hg⟩

/-- A module inside a file is declared in the scope that it stands in. -/
theorem item_mem_collectedAll (hds : ∀ d ∈ ds, d.IsItem) (h : .module scope ∈ facts (collectedAll module ds))
    {before behind : List Char} (hc : Text.cutLastColons scope.toList = some (before, behind)) :
    .item (String.ofList before) (String.ofList behind) ∈ facts (collectedAll module ds) := by
  obtain ⟨outer, head, hf, hn, hs⟩ := exists_head_of_mem hds h
  obtain ⟨name, raw, rfl, rfl⟩ := Head.eq_module_of_mem_facts hf
  rw [qualify_toList, Text.cutLastColons_append _ (colon_not_mem_of_isIdentifier hn.identifier)] at hc
  cases hc
  rw [String.ofList_toList, String.ofList_toList]
  exact hs (by simp [Head.facts])

theorem isItemName_of_body (hds : ∀ d ∈ ds, d.IsItem) {name : String}
    (h : .body around name ∈ facts (collectedAll module ds)) : IsItemName name := by
  obtain ⟨outer, head, hf, hn, -⟩ := exists_head_of_mem hds h
  obtain ⟨-, rfl | rfl⟩ := Head.eq_fn_of_mem_facts hf <;> exact hn

end

namespace Grown

theorem addFile (ht : t.Grown) (module : String) {file? : Option SourceFile}
    (items : ∀ file ∈ file?, ∀ d ∈ file.items, d.IsItem) : (t.addFile module file?).Grown := by
  rw [addFile_eq]
  refine ⟨ht.applyAll (grounded_fileFacts module file? t), fun {scope} h => ?_, fun {scope around} h => ?_⟩
  · cases hp : t.place? scope with
    | some place =>
      rw [IsModule, place?_applyAll, hp, Option.some_or, ← hp] at h
      exact (ht.listed h).mono fun hd => (declares_applyAll_iff ..).mpr (.inl hd)
    | none =>
      intro before behind hc
      refine (declares_applyAll_iff ..).mpr (.inr (List.mem_filterMap.mpr ⟨.item _ _, ?_, if_pos rfl⟩))
      have hm := module_mem_of_isModule (seated_fileFacts module file? t) hp h
      rw [fileFacts, List.mem_append] at hm ⊢
      refine hm.imp (item_mem_moduleFactsUpTo (Nat.lt_succ_self _) · hc) fun hm => ?_
      cases file? with
      | none => cases hm
      | some file => exact item_mem_collectedAll (items file rfl) hm hc
  · cases hp : t.place? scope with
    | some place =>
      rw [FallsBack, place?_applyAll, hp, Option.some_or, ← hp] at h
      exact ht.identifier h
    | none =>
      obtain ⟨name, rfl, hm⟩ := body_mem_of_fallsBack hp h
      refine ⟨name, ?_, rfl⟩
      rw [fileFacts, List.mem_append] at hm
      rcases hm with hm | hm
      · rcases mem_moduleFactsUpTo hm with ⟨_, hf⟩ | ⟨_, _, hf⟩ <;> cases hf
      · cases file? with
        | none => cases hm
        | some file => exact isItemName_of_body (items file rfl) hm

end Grown

/-- Resolving the implementations in between leaves the scopes as they are. -/
theorem Made.grown (h : Made t) : t.Grown := by
  induction h with
  | empty => exact .empty
  | file before module items ih => exact ih.addFile module items
  | module before module ih => exact @ih.addFile _ module none nofun
  | finish before ih => exact ⟨⟨ih.own, ih.named, ih.present, ih.same⟩, ih.listed, ih.identifier⟩

/-! ### The tree -/

/-- A scope that falls back is named below the one around it by an identifier and has the same module. Any other is
a module, and what is in front of its last double colon lists it. Each scope is named below its module. -/
structure IsTree (t : ScopeTable) : Prop where
  body : ∀ {scope around}, t.FallsBack scope around →
    (∃ name, IsItemName name ∧ scope = qualify around name) ∧ t.hasScope around ∧ t.moduleOf scope = t.moduleOf around
  module : ∀ {scope}, t.IsModule scope → t.moduleOf scope = scope ∧ t.Lists scope
  rooted : ∀ {scope}, t.hasScope scope →
    t.IsModule (t.moduleOf scope) ∧ t.moduleOf (t.moduleOf scope) = t.moduleOf scope ∧ Within (t.moduleOf scope) scope

/-- The module of a scope is where its fallbacks end: by induction along them. -/
theorem Rooted.isModule_moduleOf (ht : t.Rooted) (hs : t.hasScope scope) :
    t.IsModule (t.moduleOf scope) ∧ Within (t.moduleOf scope) scope := by
  induction hn : scope.length using Nat.strongRecOn generalizing scope with
  | ind n ih =>
    rcases hasScope_iff.mp hs with hm | ⟨around, hf⟩
    · rw [ht.own hm.fallback?_eq_none]
      exact ⟨hm, .refl scope⟩
    · have hf := fallsBack_iff.mp hf
      obtain ⟨hm, hw⟩ := ih _ (hn ▸ ht.falls scope around hf) (ht.present hf) rfl
      obtain ⟨name, rfl⟩ := ht.named hf
      rw [ht.same hf]
      exact ⟨hm, hw.qualify name⟩

/-- From a scope outwards to its module, each scope falls back to the next, whose name is shorter. -/
structure IsChain (t : ScopeTable) (scope : String) (chain : List String) : Prop where
  steps : (scope :: chain).IsChain fun inner outer => t.FallsBack inner outer ∧ outer.length < inner.length
  last : (scope :: chain).getLast? = some (t.moduleOf scope)
  module : t.IsModule (t.moduleOf scope)

/-- The loop over the scopes that a scope falls back to. Only the first skips an import. -/
def searches (look : Lookup) (name scope : String) (chain : List String) (skip? : Option String) : Option String :=
  (look scope name skip?).or (chain.findSome? (look · name none))

/-- A name is looked up along the chain of a scope, and in nothing else. -/
theorem Rooted.exists_chain (ht : t.Rooted) (hs : t.hasScope scope) :
    ∃ chain, t.IsChain scope chain ∧ ∀ look name skip?,
      lookupChain look t name (t.scopes.length + 1) scope skip? = searches look name scope chain skip? := by
  induction hn : scope.length using Nat.strongRecOn generalizing scope with
  | ind n ih =>
    rcases hasScope_iff.mp hs with hm | ⟨around, hf⟩
    · refine ⟨[], ⟨.singleton scope, ?_, ?_⟩, fun look name skip? => ?_⟩
      · rw [ht.own hm.fallback?_eq_none]
        rfl
      · rwa [ht.own hm.fallback?_eq_none]
      · rw [ht.falls.lookupChain_eq, hm.fallback?_eq_none]
        rfl
    · have ha := fallsBack_iff.mp hf
      have hl := ht.falls scope around ha
      obtain ⟨chain, hc, he⟩ := ih _ (hn ▸ hl) (ht.present ha) rfl
      refine ⟨around :: chain, ⟨hc.steps.cons_cons ⟨hf, hl⟩, ?_, ?_⟩, fun look name skip? => ?_⟩
      · rw [ht.same ha, List.getLast?_cons_cons, hc.last]
      · rw [ht.same ha]
        exact hc.module
      · rw [ht.falls.lookupChain_eq, ha, Option.bind_some, he, searches, searches, List.findSome?_cons]
        cases look around name none <;> rfl

theorem Grown.isTree (ht : t.Grown) : t.IsTree where
  body h := ⟨ht.identifier h, ht.present (fallsBack_iff.mp h), ht.same (fallsBack_iff.mp h)⟩
  module h := ⟨ht.own h.fallback?_eq_none, ht.listed h⟩
  rooted h :=
    have hm := ht.isModule_moduleOf h
    ⟨hm.1, ht.own hm.1.fallback?_eq_none, hm.2⟩

end ScopeTable
end GeneratorHost
