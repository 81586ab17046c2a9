import GeneratorHost.Proofs.Scope.Facts
import GeneratorHost.Proofs.Text.Colons

/-! Declared items are found where they are declared, whatever else a scope table holds. -/
namespace GeneratorHost

section
variable {α : Type}

@[simp] theorem lookup_putEntry_self (key : String) (value : α) (entries : List (String × α)) :
    (putEntry key value entries).lookup key = some value := by
  induction entries with
  | nil => simp [putEntry]
  | cons entry entries ih =>
    obtain ⟨k, v⟩ := entry
    by_cases h : k = key
    · simp [putEntry, h]
    · simp only [putEntry, h, if_false, List.lookup_cons, ih]
      grind

theorem lookup_putEntry_of_ne {key other : String} (h : other ≠ key) (value : α)
    (entries : List (String × α)) : (putEntry key value entries).lookup other = entries.lookup other := by
  have hb : (other == key) = false := beq_false_of_ne h
  induction entries with
  | nil => simp only [putEntry, List.lookup_cons, hb, List.lookup_nil]
  | cons entry entries ih =>
    obtain ⟨k, v⟩ := entry
    by_cases hk : k = key
    · subst hk
      simp only [putEntry, if_true, List.lookup_cons, hb]
    · simp only [putEntry, hk, if_false, List.lookup_cons, ih]

end

/-- The item that a fact declares in a scope. -/
def ScopeFact.item? (scope : String) : ScopeFact → Option String
  | item outer name => if outer = scope then some name else none
  | _ => none

namespace ScopeTable

/-! ### Scopes of a changed table -/

@[simp] theorem scope?_updateScope_self (name : String) (change : Scope → Scope) (t : ScopeTable) :
    (t.updateScope name change).scope? name =
      some (change ((t.scope? name).getD { module := name, fallback? := none })) :=
  lookup_putEntry_self _ _ _

theorem scope?_updateScope_of_ne {name other : String} (h : other ≠ name) (change : Scope → Scope)
    (t : ScopeTable) : (t.updateScope name change).scope? other = t.scope? other :=
  lookup_putEntry_of_ne h _ _

/-- A scope of a table; one that is missing is empty. -/
def scopeOf (t : ScopeTable) (scope : String) : Scope :=
  (t.scope? scope).getD { module := scope, fallback? := none }

theorem scopeOf_updateScope (scope : String) (change : Scope → Scope) (t : ScopeTable) (other : String) :
    (t.updateScope scope change).scopeOf other =
      if other = scope then change (t.scopeOf other) else t.scopeOf other := by
  by_cases h : other = scope
  · subst h
    rw [if_pos rfl, scopeOf, scope?_updateScope_self, Option.getD_some, scopeOf]
  · rw [if_neg h, scopeOf, scope?_updateScope_of_ne h, scopeOf]

/-- A new scope is as empty as a missing one. -/
theorem scopeOf_ensureScope (name module : String) (fallback? : Option String) (t : ScopeTable)
    (scope : String) :
    ((t.ensureScope name module fallback?).scopeOf scope).items = (t.scopeOf scope).items ∧
      ((t.ensureScope name module fallback?).scopeOf scope).aliases = (t.scopeOf scope).aliases := by
  by_cases hn : t.hasScope name
  · rw [ensureScope, if_pos hn]
    exact ⟨rfl, rfl⟩
  · rw [ensureScope, if_neg hn, scopeOf, scope?]
    by_cases h : scope = name
    · subst h
      rw [hasScope, Option.not_isSome_iff_eq_none] at hn
      rw [lookup_putEntry_self, scopeOf, hn]
      exact ⟨rfl, rfl⟩
    · rw [lookup_putEntry_of_ne h]
      exact ⟨rfl, rfl⟩

/-! ### Declared items -/

/-- A scope has an item of a name. -/
def Declares (t : ScopeTable) (scope name : String) : Prop := ∃ s, t.scope? scope = some s ∧ name ∈ s.items

theorem declares_iff {t : ScopeTable} {scope name : String} :
    t.Declares scope name ↔ name ∈ (t.scopeOf scope).items := by
  unfold Declares scopeOf
  cases t.scope? scope <;> simp

/-- An item is known if it was, or if it is declared now. -/
theorem declares_apply_iff (f : ScopeFact) (t : ScopeTable) {scope name : String} :
    (f.apply t).Declares scope name ↔ t.Declares scope name ∨ f.item? scope = some name := by
  rw [declares_iff, declares_iff]
  cases f with
  | module | body => simp [ScopeFact.apply, ScopeFact.item?, addBody, scopeOf_ensureScope]
  | item outer shown =>
    simp only [ScopeFact.apply, ScopeFact.item?, declare, scopeOf_updateScope]
    by_cases h : scope = outer
    · subst h
      by_cases hs : shown ∈ (t.scopeOf scope).items <;> grind
    · simp [h, Ne.symm h]
  | binding | glob =>
    simp only [ScopeFact.apply, ScopeFact.item?, importAs, ScopeTable.glob, scopeOf_updateScope]
    split <;> simp
  | _ => simp [ScopeFact.apply, ScopeFact.item?, putTrait, addImpl, scopeOf, scope?]

/-- A table knows the items that it knew and those among the facts. -/
theorem declares_applyAll_iff (fs : List ScopeFact) (t : ScopeTable) {scope name : String} :
    (t.applyAll fs).Declares scope name ↔
      t.Declares scope name ∨ name ∈ fs.filterMap (ScopeFact.item? scope) := by
  induction fs generalizing t with
  | nil => simp
  | cons f fs ih =>
    rw [applyAll_cons, ih, declares_apply_iff, or_assoc]
    simp only [List.mem_filterMap, List.mem_cons, exists_eq_or_imp]

/-! ### Resolution -/

variable {t : ScopeTable}

/-- An item is found before imports of its name are looked at. -/
theorem Declares.lookupLocal {scope name : String} (h : t.Declares scope name) (depth : Nat)
    (skip? : Option String) : lookupLocal t (depth + 1) scope name skip? = some (qualify scope name) := by
  obtain ⟨s, hs, hn⟩ := h
  unfold ScopeTable.lookupLocal
  simp only [hs, List.contains_iff_mem, hn, if_true]

/-- A path that begins with a plain name goes on from what the name stands for. -/
theorem resolveVia_name {look : Lookup} {scope first : String} {rest : List String} {skip? : Option String}
    (h : first ∉ ["crate", "self", "super"]) :
    resolveVia look t scope ⟨false, first :: rest⟩ skip? =
      match lookupChain look t first (t.scopes.length + 1) scope skip? with
      | some found => descend look found rest
      | none => some (join first rest) := by
  simp only [List.mem_cons, List.not_mem_nil, or_false, not_or] at h
  unfold resolveVia
  grind

/-- A declared item resolves in its scope to its place in the scope. -/
theorem Declares.resolve {scope name : String} (h : t.Declares scope name)
    (hn : name ∉ ["crate", "self", "super"]) :
    t.resolve scope ⟨false, [name]⟩ = some (qualify scope name) := by
  rw [ScopeTable.resolve, resolveWithin, resolveVia_name hn, lookupChain, h.lookupLocal]
  rfl

/-! ### Canonical paths -/

/-- From the crate root on, every name is declared where the names before it lead. -/
inductive Located (t : ScopeTable) : List String → Prop
  | root : Located t []
  | step {names : List String} {name : String} (outer : Located t names)
      (declared : t.Declares (scopePath names) name) (identifier : UnitRoot.isIdentifier name.toList)
      (not_super : name ≠ "super") : Located t (names ++ [name])

theorem descend_append (look : Lookup) (current : String) (names rest : List String) :
    descend look current (names ++ rest) = (descend look current names).bind (descend look · rest) := by
  fun_induction descend look current names with
  | case1 => rfl
  | case2 current rest parent h ih =>
    rw [List.cons_append, descend, h]
    exact ih
  | case3 current rest h =>
    rw [List.cons_append, descend, h]
    rfl
  | case4 current segment rest hs ih =>
    rw [List.cons_append, descend, ih]
    exact hs

/-- Following declared names arrives at the path of the names. -/
theorem Located.descend {names : List String} (h : t.Located names) (depth : Nat) :
    descend (lookupLocal t (depth + 1)) "crate" names = some (scopePath names) := by
  induction h with
  | root => rfl
  | @step names name outer declared identifier not_super ih =>
    rw [descend_append, ih, Option.bind_some, ScopeTable.descend, declared.lookupLocal, scopePath_concat]
    · rfl
    · exact not_super

theorem Located.colon_not_mem {names : List String} (h : t.Located names) : ∀ n ∈ names, ':' ∉ n.toList := by
  induction h with
  | root => exact List.forall_mem_nil _
  | step outer declared identifier not_super ih =>
    simp only [List.mem_append, List.mem_singleton]
    rintro n (hn | rfl)
    · exact ih n hn
    · exact colon_not_mem_of_isIdentifier identifier

/-- Paths of declared names are canonical. -/
theorem Located.canonicalize {names : List String} (h : t.Located names) :
    t.canonicalize (scopePath names) = scopePath names := by
  have hp : Path.ofMarked ("crate" :: names) = ⟨false, "crate" :: names⟩ := rfl
  rw [ScopeTable.canonicalize, splitColons_scopePath h.colon_not_mem, hp, ScopeTable.resolve, resolveWithin,
    resolveVia, h.descend]
  rfl

/-- A segment that a module path may have: a name that does not lead back to the module around. -/
def IsSegment (name : String) : Prop := UnitRoot.isIdentifier name.toList ∧ name ≠ "super"

/-- The modules around a module declare each other down to it. -/
theorem located_of_moduleFacts {names : List String} (hn : ∀ n ∈ names, IsSegment n) {fuel : Nat}
    (hf : names.length < fuel)
    (hd : ∀ scope name, .item scope name ∈ moduleFactsUpTo fuel (scopePath names) → t.Declares scope name) :
    t.Located names := by
  induction names using List.reverseRecOn generalizing fuel with
  | nil => exact .root
  | append_singleton names name ih =>
    obtain ⟨fuel, rfl⟩ := Nat.exists_eq_add_one.mpr (Nat.zero_lt_of_lt hf)
    rw [List.length_append, List.length_singleton, Nat.add_lt_add_iff_right] at hf
    simp only [List.mem_append, List.mem_singleton, or_imp, forall_and, forall_eq] at hn
    have hc := colon_not_mem_of_isIdentifier hn.2.1
    simp only [moduleFactsUpTo, scopePath_concat, qualify_toList, Text.cutLastColons_append _ hc,
      String.ofList_toList, List.mem_cons, List.mem_append, List.not_mem_nil, or_false, reduceCtorEq,
      false_or] at hd
    refine .step (ih hn.1 hf fun scope name h => hd scope name (.inl h)) (hd _ _ (.inr rfl)) hn.2.1 hn.2.2

theorem length_lt_scopePath (names : List String) : names.length < (scopePath names).length + 1 := by
  induction names using List.reverseRecOn with
  | nil => simp
  | append_singleton names name ih =>
    simp only [scopePath_concat, qualify, String.length_append, List.length_append, List.length_singleton]
    have : "::".length = 2 := rfl
    omega

/-- The module of a file is where its path says once the file is added. -/
theorem located_of_fileFacts {names : List String} (hn : ∀ n ∈ names, IsSegment n) {file? : Option SourceFile}
    (hd : ∀ scope name, .item scope name ∈ fileFacts (scopePath names) file? → t.Declares scope name) :
    t.Located names :=
  located_of_moduleFacts hn (length_lt_scopePath names) fun scope name h =>
    hd scope name (List.mem_append_left _ h)

end ScopeTable
end GeneratorHost
