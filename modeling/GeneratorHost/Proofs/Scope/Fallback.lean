import GeneratorHost.Proofs.Scope.Frame

/-! Where scopes fall back to. What opens a scope first settles it for good, and the module of a scope is
that of the scope it falls back to, if each function body is added to a scope that is there. -/
namespace GeneratorHost

namespace ScopeFact

/-- What a fact makes a scope fall back to that was not there before. -/
def opens? (scope : String) : ScopeFact → Option (Option String)
  | module name => if name = scope then some none else none
  | body around name => if qualify around name = scope then some (some around) else none
  | item outer _ | binding outer _ _ | glob outer _ => if outer = scope then some none else none
  | _ => none

/-- The glob import that a fact makes in a scope. -/
def glob? (scope : String) : ScopeFact → Option Path
  | glob outer target => if outer = scope then some target else none
  | _ => none

end ScopeFact

namespace ScopeTable

/-- What a scope falls back to, if it is there. -/
def place? (t : ScopeTable) (scope : String) : Option (Option String) := (t.scope? scope).map (·.fallback?)

theorem hasScope_eq (t : ScopeTable) (scope : String) : t.hasScope scope = (t.place? scope).isSome := by
  rw [hasScope, place?, Option.isSome_map]

theorem fallback?_scopeOf_eq_some_iff {t : ScopeTable} {scope around : String} :
    (t.scopeOf scope).fallback? = some around ↔ t.place? scope = some (some around) := by
  unfold scopeOf place?
  cases t.scope? scope <;> simp

theorem fallback?_scopeOf_congr {t u : ScopeTable} {scope : String} (h : u.place? scope = t.place? scope) :
    (u.scopeOf scope).fallback? = (t.scopeOf scope).fallback? := by
  apply Option.ext
  intro around
  rw [fallback?_scopeOf_eq_some_iff, fallback?_scopeOf_eq_some_iff, h]

/-! ### Changes of a scope -/

theorem place?_ensureScope (name module : String) (fallback? : Option String) (t : ScopeTable) (scope : String) :
    (t.ensureScope name module fallback?).place? scope =
      (t.place? scope).or (if name = scope then some fallback? else none) := by
  by_cases hn : t.hasScope name
  · rw [ensureScope, if_pos hn]
    rw [hasScope_eq, Option.isSome_iff_exists] at hn
    obtain ⟨place, hn⟩ := hn
    by_cases h : name = scope
    · subst h
      rw [hn, Option.some_or]
    · rw [if_neg h, Option.or_none]
  · rw [ensureScope, if_neg hn, place?, place?, scope?]
    by_cases h : name = scope
    · subst h
      rw [hasScope, Option.not_isSome_iff_eq_none] at hn
      rw [lookup_putEntry_self, hn, if_pos rfl]
      rfl
    · rw [lookup_putEntry_of_ne (Ne.symm h), if_neg h, Option.or_none]
      rfl

theorem place?_updateScope {change : Scope → Scope} (hc : ∀ s, (change s).fallback? = s.fallback?)
    (name : String) (t : ScopeTable) (scope : String) :
    (t.updateScope name change).place? scope =
      (t.place? scope).or (if name = scope then some none else none) := by
  by_cases h : name = scope
  · subst h
    rw [place?, scope?_updateScope_self, place?, if_pos rfl]
    cases t.scope? name <;> simp [hc]
  · rw [place?, scope?_updateScope_of_ne (Ne.symm h), if_neg h, Option.or_none, place?]

theorem moduleOf_ensureScope (name module : String) (fallback? : Option String) (t : ScopeTable)
    (scope : String) :
    (t.ensureScope name module fallback?).moduleOf scope =
      if scope = name ∧ ¬ t.hasScope name then module else t.moduleOf scope := by
  by_cases hn : t.hasScope name
  · rw [ensureScope, if_pos hn, if_neg (by simp [hn])]
  · rw [ensureScope, if_neg hn, moduleOf, scope?]
    by_cases h : scope = name
    · subst h
      rw [lookup_putEntry_self, if_pos ⟨rfl, hn⟩]
      rfl
    · rw [lookup_putEntry_of_ne h, if_neg (by simp [h])]
      rfl

theorem moduleOf_updateScope {change : Scope → Scope} (hc : ∀ s, (change s).module = s.module)
    (name : String) (t : ScopeTable) (scope : String) :
    (t.updateScope name change).moduleOf scope = t.moduleOf scope := by
  rw [moduleOf_eq, scopeOf_updateScope, moduleOf_eq]
  split <;> simp [hc]

/-! ### Facts -/

theorem place?_apply (f : ScopeFact) (t : ScopeTable) (scope : String) :
    (f.apply t).place? scope = (t.place? scope).or (f.opens? scope) := by
  cases f with
  | module | body => exact place?_ensureScope _ _ _ t scope
  | item =>
    rw [ScopeFact.apply, declare, place?_updateScope]
    · rfl
    · intro s
      split_ifs <;> rfl
  | binding =>
    rw [ScopeFact.apply, importAs, place?_updateScope]
    · rfl
    · exact fun _ => rfl
  | glob =>
    rw [ScopeFact.apply, ScopeTable.glob, place?_updateScope]
    · rfl
    · exact fun _ => rfl
  | _ => exact Option.or_none.symm

/-- The first fact that opens a scope settles what it falls back to. -/
theorem place?_applyAll (fs : List ScopeFact) (t : ScopeTable) (scope : String) :
    (t.applyAll fs).place? scope = (t.place? scope).or (fs.filterMap (ScopeFact.opens? scope)).head? := by
  induction fs generalizing t with
  | nil => exact Option.or_none.symm
  | cons f fs ih =>
    rw [applyAll_cons, ih, place?_apply, Option.or_assoc, List.filterMap_cons]
    cases f.opens? scope <;> rfl

theorem hasScope_applyAll {t : ScopeTable} {scope : String} (h : t.hasScope scope) (fs : List ScopeFact) :
    (t.applyAll fs).hasScope scope := by
  rw [hasScope_eq] at h ⊢
  rw [place?_applyAll, Option.isSome_or, h, Bool.true_or]

theorem globs_scopeOf_ensureScope (name module : String) (fallback? : Option String) (t : ScopeTable)
    (scope : String) : ((t.ensureScope name module fallback?).scopeOf scope).globs = (t.scopeOf scope).globs := by
  by_cases hn : t.hasScope name
  · rw [ensureScope, if_pos hn]
  · rw [ensureScope, if_neg hn, scopeOf, scope?]
    by_cases h : scope = name
    · subst h
      rw [hasScope, Option.not_isSome_iff_eq_none] at hn
      rw [lookup_putEntry_self, scopeOf, hn]
      rfl
    · rw [lookup_putEntry_of_ne h]
      rfl

theorem globs_apply (f : ScopeFact) (t : ScopeTable) (scope : String) :
    ((f.apply t).scopeOf scope).globs = (t.scopeOf scope).globs ++ (f.glob? scope).toList := by
  cases f with
  | module | body =>
    simp only [ScopeFact.apply, ScopeFact.glob?, addBody, globs_scopeOf_ensureScope, Option.toList_none,
      List.append_nil]
  | item outer name =>
    simp only [ScopeFact.apply, ScopeFact.glob?, declare, scopeOf_updateScope, Option.toList_none, List.append_nil]
    split_ifs <;> rfl
  | binding outer name target =>
    simp only [ScopeFact.apply, ScopeFact.glob?, importAs, scopeOf_updateScope, Option.toList_none, List.append_nil]
    split_ifs <;> rfl
  | glob outer target =>
    simp only [ScopeFact.apply, ScopeFact.glob?, ScopeTable.glob, scopeOf_updateScope]
    by_cases h : scope = outer
    · rw [if_pos h, if_pos h.symm, Option.toList_some]
    · rw [if_neg h, if_neg (Ne.symm h), Option.toList_none, List.append_nil]
  | _ => exact (List.append_nil _).symm

/-- The glob imports of a scope stand in the order of their facts. -/
theorem globs_applyAll (fs : List ScopeFact) (t : ScopeTable) (scope : String) :
    ((t.applyAll fs).scopeOf scope).globs = (t.scopeOf scope).globs ++ fs.filterMap (ScopeFact.glob? scope) := by
  induction fs generalizing t with
  | nil => exact (List.append_nil _).symm
  | cons f fs ih =>
    rw [applyAll_cons, ih, globs_apply, List.append_assoc, List.filterMap_cons]
    cases f.glob? scope <;> rfl

/-! ### Modules of scopes -/

/-- A scope that falls back to none is a module of its own. Any other is named below the scope around it,
which is there and of the same module. -/
structure Rooted (t : ScopeTable) : Prop where
  own : ∀ {scope}, (t.scopeOf scope).fallback? = none → t.moduleOf scope = scope
  named : ∀ {scope around}, (t.scopeOf scope).fallback? = some around → ∃ name, scope = qualify around name
  present : ∀ {scope around}, (t.scopeOf scope).fallback? = some around → t.hasScope around
  same : ∀ {scope around}, (t.scopeOf scope).fallback? = some around → t.moduleOf scope = t.moduleOf around

namespace Rooted

theorem empty : Rooted {} where
  own _ := rfl
  named h := nomatch h
  present h := nomatch h
  same h := nomatch h

theorem falls {t : ScopeTable} (ht : t.Rooted) : t.Falls := by
  intro scope around h
  obtain ⟨name, rfl⟩ := ht.named h
  have : "::".length = 2 := rfl
  simp only [qualify, String.length_append]
  omega

end Rooted

theorem ne_qualify (scope name : String) : scope ≠ qualify scope name := by
  intro h
  have := congrArg String.length h
  have : "::".length = 2 := rfl
  simp only [qualify, String.length_append] at *
  omega

theorem moduleOf_of_not_hasScope {t : ScopeTable} {scope : String} (h : ¬ t.hasScope scope) :
    t.moduleOf scope = scope := by
  rw [hasScope, Option.not_isSome_iff_eq_none] at h
  rw [moduleOf, h]
  rfl

/-- Only the body of a function makes a scope fall back to another. -/
theorem fallback?_scopeOf_apply {f : ScopeFact} {scope : String} (h : ∀ around, f.opens? scope ≠ some (some around))
    (t : ScopeTable) : ((f.apply t).scopeOf scope).fallback? = (t.scopeOf scope).fallback? := by
  apply Option.ext
  intro around
  rw [fallback?_scopeOf_eq_some_iff, fallback?_scopeOf_eq_some_iff, place?_apply]
  cases hp : t.place? scope with
  | none => simpa using h around
  | some place => rw [Option.some_or]

/-- Only the body of a function adds a scope with a module other than itself. -/
theorem moduleOf_apply {f : ScopeFact} (h : ∀ scope name, f ≠ .body scope name) (t : ScopeTable) (scope : String) :
    (f.apply t).moduleOf scope = t.moduleOf scope := by
  cases f with
  | module name =>
    rw [ScopeFact.apply, moduleOf_ensureScope]
    split_ifs with hn
    · rw [hn.1, moduleOf_of_not_hasScope hn.2]
    · rfl
  | body outer name => exact absurd rfl (h outer name)
  | item =>
    rw [ScopeFact.apply, declare, moduleOf_updateScope]
    intro s
    split_ifs <;> rfl
  | binding =>
    rw [ScopeFact.apply, importAs, moduleOf_updateScope]
    exact fun _ => rfl
  | glob =>
    rw [ScopeFact.apply, ScopeTable.glob, moduleOf_updateScope]
    exact fun _ => rfl
  | _ => rfl

/-- A function's body in a scope that is there opens a scope of the same module. -/
theorem Rooted.addBody {t : ScopeTable} (ht : t.Rooted) {outer : String} (ho : t.hasScope outer) (name : String) :
    (t.addBody outer name).Rooted := by
  by_cases hb : t.hasScope (qualify outer name)
  · rwa [ScopeTable.addBody, ensureScope, if_pos hb]
  have hs (scope : String) (h : t.hasScope scope) : (t.addBody outer name).hasScope scope :=
    hasScope_applyAll h [.body outer name]
  have hm (scope : String) : (t.addBody outer name).moduleOf scope =
      if scope = qualify outer name then t.moduleOf outer else t.moduleOf scope := by
    simp [ScopeTable.addBody, moduleOf_ensureScope, hb]
  have hf {scope around : String} : ((t.addBody outer name).scopeOf scope).fallback? = some around ↔
      (t.scopeOf scope).fallback? = some around ∨ scope = qualify outer name ∧ around = outer := by
    rw [hasScope_eq, Bool.not_eq_true, Option.isSome_eq_false_iff, Option.isNone_iff_eq_none] at hb
    rw [fallback?_scopeOf_eq_some_iff, fallback?_scopeOf_eq_some_iff, ScopeTable.addBody, place?_ensureScope]
    by_cases h : qualify outer name = scope
    · subst h
      simp [hb, eq_comm]
    · simp [h, Ne.symm h]
  constructor
  · intro scope h
    have hn : scope ≠ qualify outer name := by
      rintro rfl
      rw [hf.mpr (.inr ⟨rfl, rfl⟩)] at h
      cases h
    rw [hm, if_neg hn]
    apply ht.own
    apply Option.eq_none_iff_forall_ne_some.mpr
    intro around ha
    rw [hf.mpr (.inl ha)] at h
    cases h
  · intro scope around h
    rcases hf.mp h with h | ⟨rfl, rfl⟩
    · exact ht.named h
    · exact ⟨name, rfl⟩
  · intro scope around h
    rcases hf.mp h with h | ⟨rfl, rfl⟩
    · exact hs _ (ht.present h)
    · exact hs _ ho
  · intro scope around h
    rcases hf.mp h with h | ⟨rfl, rfl⟩
    · -- No scope falls back to the new one yet: what a scope falls back to was there before.
      have hn : around ≠ qualify outer name := by
        rintro rfl
        exact hb (ht.present h)
      have hn' : scope ≠ qualify outer name := by
        rintro rfl
        rw [fallback?_scopeOf_eq_some_iff] at h
        rw [hasScope_eq, h] at hb
        exact hb rfl
      rw [hm, hm, if_neg hn, if_neg hn', ht.same h]
    · rw [hm, hm, if_pos rfl, if_neg (ne_qualify around name)]

/-- All other facts keep modules and fallbacks. -/
theorem Rooted.apply {t : ScopeTable} (ht : t.Rooted) {f : ScopeFact}
    (hf : ∀ scope name, f = .body scope name → t.hasScope scope) : (f.apply t).Rooted := by
  by_cases hb : ∃ scope name, f = .body scope name
  · obtain ⟨scope, name, rfl⟩ := hb
    exact ht.addBody (hf scope name rfl) name
  have hb (scope name : String) : f ≠ .body scope name := fun h => hb ⟨scope, name, h⟩
  have hp (scope : String) : ((f.apply t).scopeOf scope).fallback? = (t.scopeOf scope).fallback? := by
    apply fallback?_scopeOf_apply
    intro around
    cases f <;> grind [ScopeFact.opens?]
  have hm (scope : String) := moduleOf_apply hb t scope
  constructor
  · intro scope h
    rw [hm, ht.own (hp scope ▸ h)]
  · intro scope around h
    exact ht.named (hp scope ▸ h)
  · intro scope around h
    exact hasScope_applyAll (ht.present (hp scope ▸ h)) [f]
  · intro scope around h
    rw [hm, hm, ht.same (hp scope ▸ h)]

/-- Tables with the same fallbacks have the same modules: by induction on the name, along the scopes that
a scope falls back to. -/
theorem moduleOf_eq_of_place? {t u : ScopeTable} (ht : t.Rooted) (hu : u.Rooted) {P : String → Prop}
    (hP : ∀ {scope around}, P scope → (t.scopeOf scope).fallback? = some around → P around)
    (h : ∀ {scope}, P scope → u.place? scope = t.place? scope) {scope : String} (hs : P scope) :
    u.moduleOf scope = t.moduleOf scope := by
  induction hn : scope.length using Nat.strongRecOn generalizing scope with
  | ind n ih =>
    have hf := fallback?_scopeOf_congr (h hs)
    cases ha : (t.scopeOf scope).fallback? with
    | none => rw [hu.own (hf.trans ha), ht.own ha]
    | some around =>
      rw [hu.same (hf.trans ha), ht.same ha]
      exact ih _ (hn ▸ ht.falls scope around ha) (hP hs ha) rfl

end ScopeTable
end GeneratorHost
