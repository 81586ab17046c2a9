import GeneratorHost.Proofs.Scope.Traits

/-! What a scope knows under a name: its items, and of the imports the last one. Both are looked up by
the name alone, so that an item hides an import of its name whatever kind of item it is. -/
namespace GeneratorHost

/-- The import that a fact makes in a scope: the name and the path it stands for. -/
def ScopeFact.binding? (scope : String) : ScopeFact → Option (String × Path)
  | binding outer name target => if outer = scope then some (name, target) else none
  | _ => none

namespace ScopeTable

/-- What a scope imports under a name. -/
def imported? (t : ScopeTable) (scope name : String) : Option Path := (t.scopeOf scope).aliases.lookup name

/-! ### Changes of a scope -/

theorem imported?_apply_of_none {f : ScopeFact} {scope : String} (h : f.binding? scope = none)
    (t : ScopeTable) (name : String) : (f.apply t).imported? scope name = t.imported? scope name := by
  unfold imported?
  cases f with
  | module | body => simp [ScopeFact.apply, addBody, scopeOf_ensureScope]
  | item | glob =>
    simp only [ScopeFact.apply, declare, ScopeTable.glob, scopeOf_updateScope]
    split_ifs <;> rfl
  | binding outer shown target =>
    have hs : scope ≠ outer := by
      rintro rfl
      simp [ScopeFact.binding?] at h
    rw [ScopeFact.apply, importAs, scopeOf_updateScope, if_neg hs]
  | _ => rfl

theorem imported?_importAs (scope shown : String) (target : Path) (t : ScopeTable) (name : String) :
    (t.importAs scope shown target).imported? scope name =
      if shown = name then some target else t.imported? scope name := by
  rw [imported?, importAs, scopeOf_updateScope, if_pos rfl]
  by_cases h : shown = name
  · subst h
    rw [if_pos rfl, lookup_putEntry_self]
  · rw [if_neg h, lookup_putEntry_of_ne (Ne.symm h), imported?]

/-- Of the imports of a name, a scope keeps the last one. -/
theorem imported?_applyAll (fs : List ScopeFact) (t : ScopeTable) (scope name : String) :
    (t.applyAll fs).imported? scope name =
      (lastNamed name (fs.filterMap (ScopeFact.binding? scope))).or (t.imported? scope name) := by
  induction fs using List.reverseRecOn with
  | nil => rfl
  | append_singleton fs f ih =>
    rw [applyAll_append, applyAll_cons, applyAll_nil, List.filterMap_append, List.filterMap_cons]
    cases hb : f.binding? scope with
    | none =>
      rw [imported?_apply_of_none hb, ih]
      simp only [List.filterMap_nil, List.append_nil]
    | some entry =>
      obtain ⟨shown, target⟩ := entry
      obtain rfl : f = .binding scope shown target := by
        cases f <;> grind [ScopeFact.binding?]
      simp only [ScopeFact.apply, imported?_importAs, List.filterMap_nil, lastNamed_concat, ih]
      by_cases h : shown = name <;> simp [h]

/-! ### Resolution -/

variable {t : ScopeTable} {scope name path : String} {target : Path}

/-- Where an import of a name in a scope leads: its path as written there, with one level of imports
less than a path that is looked up. The import itself is not followed on the way. -/
def resolveImport (t : ScopeTable) (scope name : String) (target : Path) : Option String :=
  resolveVia (lookupLocal t maxDepth) t scope target (some name)

/-- Without an item of the name, the import is followed before any glob import. -/
theorem lookupLocal_of_imported (hd : ¬ t.Declares scope name) (hi : t.imported? scope name = some target) :
    lookupLocal t (maxDepth + 1) scope name none = t.resolveImport scope name target := by
  unfold imported? scopeOf at hi
  cases hs : t.scope? scope with
  | none => simp [hs] at hi
  | some s =>
    have hn : s.items.contains name = false := by
      rw [Bool.eq_false_iff, Ne, List.contains_iff_mem]
      exact fun hm => hd ⟨s, hs, hm⟩
    rw [hs, Option.getD_some] at hi
    rw [resolveImport, ScopeTable.lookupLocal]
    simp only [hs, hn, hi, reduceCtorEq, if_false]
    rfl

/-- A name that is no item of its scope resolves to where its import leads. -/
theorem resolve_of_imported (hn : name ∉ ["crate", "self", "super"]) (hd : ¬ t.Declares scope name)
    (hi : t.imported? scope name = some target) (hp : t.resolveImport scope name target = some path) :
    t.resolve scope ⟨false, [name]⟩ = some path := by
  rw [resolve, resolveWithin, resolveVia_name hn, lookupChain, lookupLocal_of_imported hd hi, hp]
  rfl

/-- Only a step to the module around can lead nowhere. -/
theorem descend_ne_none {look : Lookup} {segments : List String} (hs : "super" ∉ segments)
    (current : String) : descend look current segments ≠ none := by
  induction segments generalizing current with
  | nil => exact Option.some_ne_none _
  | cons segment rest ih =>
    rw [List.mem_cons, not_or] at hs
    rw [descend]
    · exact ih hs.2 _
    · exact fun h => hs.1 h.symm

end ScopeTable
end GeneratorHost
