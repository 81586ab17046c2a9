import GeneratorHost.Proofs.Scope.Bindings

/-! The calls that a resolution makes. Its answer depends on the scopes that the calls ask about and on
nothing else in the table, and on the bound of nested imports only where that bound cuts a call off. -/
namespace GeneratorHost

/-- The members of a list that a search looks at, up to the first with an answer. -/
def visited {α β : Type} (f : α → Option β) : List α → List α
  | [] => []
  | a :: as => a :: if (f a).isSome then [] else visited f as

theorem findSome?_eq_of_visited {α β : Type} {f g : α → Option β} {as : List α}
    (h : ∀ a ∈ visited f as, g a = f a) : as.findSome? g = as.findSome? f := by
  induction as with
  | nil => rfl
  | cons a as ih =>
    rw [visited, List.forall_mem_cons] at h
    rw [List.findSome?_cons, List.findSome?_cons, h.1]
    cases hf : f a with
    | some b => rfl
    | none =>
      rw [hf] at h
      exact ih h.2

namespace ScopeTable

/-! ### What a path asks -/

/-- A name to look up in a single scope, without the import of the skipped name. -/
structure Ask where
  scope : String
  name : String
  skip? : Option String

/-- The answer of a look-up. -/
def Lookup.answer? (look : Lookup) (a : Ask) : Option String := look a.scope a.name a.skip?

@[simp] theorem answer?_mk (look : Lookup) (scope name : String) (skip? : Option String) :
    look.answer? ⟨scope, name, skip?⟩ = look scope name skip? :=
  rfl

/-- A name in a scope and in the scopes that it falls back to. -/
def chainAsks (t : ScopeTable) (name : String) : Nat → String → Option String → List Ask
  | 0, _, _ => []
  | fuel + 1, scope, skip? =>
    ⟨scope, name, skip?⟩ :: match (t.scopeOf scope).fallback? with
      | some around => chainAsks t name fuel around none
      | none => []

/-- The members that are looked up behind a resolved module. -/
def descentAsks (look : Lookup) (current : String) : List String → List Ask
  | [] => []
  | "super" :: rest =>
    match parentModule? current with
    | some parent => descentAsks look parent rest
    | none => []
  | segment :: rest =>
    ⟨current, segment, none⟩ ::
      descentAsks look ((look current segment none).getD (qualify current segment)) rest

/-- What is looked up to resolve a path as written in a scope. -/
def pathAsks (look : Lookup) (t : ScopeTable) (scope : String) (path : Path) (skip? : Option String) :
    List Ask :=
  match path with
  | ⟨true, _⟩ | ⟨false, []⟩ => []
  | ⟨false, "crate" :: rest⟩ => descentAsks look "crate" rest
  | ⟨false, "self" :: rest⟩ => descentAsks look (t.moduleOf scope) rest
  | ⟨false, "super" :: rest⟩ => (parentModule? (t.moduleOf scope)).elim [] (descentAsks look · rest)
  | ⟨false, first :: rest⟩ =>
    visited look.answer? (chainAsks t first (t.scopes.length + 1) scope skip?) ++
      (lookupChain look t first (t.scopes.length + 1) scope skip?).elim [] (descentAsks look · rest)

/-! ### What a resolution calls -/

/-- A path resolved in a scope, or a name looked up in a single scope, so many imports deep. -/
inductive Call where
  | path (depth : Nat) (scope : String) (path : Path)
  | name (depth : Nat) (scope name : String)
deriving Repr

namespace Call

def depth : Call → Nat
  | path depth .. | name depth .. => depth

def scope : Call → String
  | path _ scope _ | name _ scope _ => scope

end Call

/-- Resolves a path with so many levels of imports left. -/
def resolveUnder (t : ScopeTable) (left : Nat) (scope : String) (path : Path) (skip? : Option String) :
    Option String :=
  match left with
  | 0 => none
  | _ + 1 => resolveVia (lookupLocal t left) t scope path skip?

/-- What a glob import of a scope contributes under a name. -/
def globbed (t : ScopeTable) (left : Nat) (scope name : String) (path : Path) : Option String :=
  match resolveUnder t left scope path none with
  | some module => if module = scope then none else lookupLocal t left module name none
  | none => none

/-- The calls for a path: its own, and those of the names it asks for. Without a level left, the call
returns at once. -/
def pathCalls (t : ScopeTable) (names : Ask → List Call) (left depth : Nat) (scope : String) (path : Path)
    (skip? : Option String) : List Call :=
  .path depth scope path :: match left with
    | 0 => []
    | _ + 1 => (pathAsks (lookupLocal t left) t scope path skip?).flatMap names

/-- The calls for a glob import: those of its path, and the look-up in the module it leads to. -/
def globCalls (t : ScopeTable) (names : Ask → List Call) (left depth : Nat) (scope name : String)
    (path : Path) : List Call :=
  pathCalls t names left depth scope path none ++
    match resolveUnder t left scope path none with
    | some module => if module = scope then [] else names ⟨module, name, none⟩
    | none => []

/-- The calls of a look-up with so many levels of imports left. An item needs no further call, and the
glob imports are looked at only where the name itself is not imported. -/
def nameCalls (t : ScopeTable) : (left depth : Nat) → Ask → List Call
  | 0, depth, a => [.name depth a.scope a.name]
  | left + 1, depth, a =>
    .name depth a.scope a.name ::
      if (t.scopeOf a.scope).items.contains a.name then []
      else match (if a.skip? = some a.name then none else t.imported? a.scope a.name) with
        | some target => pathCalls t (nameCalls t left (depth + 1)) left (depth + 1) a.scope target (some a.name)
        | none =>
          (visited (globbed t left a.scope a.name) (t.scopeOf a.scope).globs).flatMap
            (globCalls t (nameCalls t left (depth + 1)) left (depth + 1) a.scope a.name)

/-- All calls of a resolution that may go `bound` imports deep, cut off or not. -/
def calls (t : ScopeTable) (bound : Nat) (scope : String) (path : Path) : List Call :=
  pathCalls t (nameCalls t (bound + 1) 0) (bound + 1) 0 scope path none

/-! ### Look-ups by the contents of a scope -/

theorem fallback?_scopeOf (t : ScopeTable) (scope : String) :
    (t.scopeOf scope).fallback? = (t.scope? scope).bind (·.fallback?) := by
  unfold scopeOf
  cases t.scope? scope <;> rfl

theorem moduleOf_eq (t : ScopeTable) (scope : String) : t.moduleOf scope = (t.scopeOf scope).module := by
  unfold moduleOf scopeOf
  cases t.scope? scope <;> rfl

/-- A chain of scopes is searched for the first that answers. -/
theorem lookupChain_eq (look : Lookup) (t : ScopeTable) (name : String) (fuel : Nat) (scope : String)
    (skip? : Option String) :
    lookupChain look t name fuel scope skip? = (chainAsks t name fuel scope skip?).findSome? look.answer? := by
  induction fuel generalizing scope skip? with
  | zero => rfl
  | succ fuel ih =>
    rw [lookupChain, chainAsks, List.findSome?_cons, answer?_mk, ← fallback?_scopeOf]
    cases look scope name skip? with
    | some found => rfl
    | none =>
      cases (t.scopeOf scope).fallback? with
      | some around => exact ih around none
      | none => rfl

/-- A name is looked up among the items, then among the imports, then in what the globs lead to. -/
theorem lookupLocal_succ (t : ScopeTable) (left : Nat) (scope name : String) (skip? : Option String) :
    lookupLocal t (left + 1) scope name skip? =
      if (t.scopeOf scope).items.contains name then some (qualify scope name)
      else match (if skip? = some name then none else t.imported? scope name) with
        | some target => resolveUnder t left scope target (some name)
        | none => (t.scopeOf scope).globs.findSome? (globbed t left scope name) := by
  unfold imported? scopeOf
  rw [lookupLocal]
  cases t.scope? scope with
  | none => simp
  | some s => rfl

/-! ### Depths -/

section
variable {t : ScopeTable} {c : Call}

theorem depth_le_of_mem_pathCalls {names : Ask → List Call} {left depth : Nat}
    (hn : ∀ a, c ∈ names a → depth ≤ c.depth) {scope : String} {path : Path} {skip? : Option String}
    (h : c ∈ pathCalls t names left depth scope path skip?) : depth ≤ c.depth := by
  unfold pathCalls at h
  rw [List.mem_cons] at h
  rcases h with rfl | h
  · exact Nat.le_refl depth
  · cases left with
    | zero => cases h
    | succ left =>
      obtain ⟨a, -, h⟩ := List.mem_flatMap.mp h
      exact hn a h

theorem depth_le_of_mem_globCalls {names : Ask → List Call} {left depth : Nat}
    (hn : ∀ a, c ∈ names a → depth ≤ c.depth) {scope name : String} {path : Path}
    (h : c ∈ globCalls t names left depth scope name path) : depth ≤ c.depth := by
  rw [globCalls, List.mem_append] at h
  rcases h with h | h
  · exact depth_le_of_mem_pathCalls hn h
  · split at h
    · split_ifs at h
      · cases h
      · exact hn _ h
    · cases h

/-- All further calls of a look-up are deeper than the look-up itself. -/
theorem eq_or_depth_lt_of_mem_nameCalls {left depth : Nat} {a : Ask} (h : c ∈ nameCalls t left depth a) :
    c = .name depth a.scope a.name ∨ depth < c.depth := by
  induction left generalizing depth a with
  | zero =>
    rw [nameCalls, List.mem_singleton] at h
    exact .inl h
  | succ left ih =>
    have hn (a : Ask) (h : c ∈ nameCalls t left (depth + 1) a) : depth + 1 ≤ c.depth := by
      rcases ih h with rfl | h
      · exact Nat.le_refl _
      · exact Nat.le_of_lt h
    rw [nameCalls, List.mem_cons] at h
    refine h.imp_right fun h => ?_
    by_cases hi : (t.scopeOf a.scope).items.contains a.name
    · rw [if_pos hi] at h
      cases h
    · rw [if_neg hi] at h
      split at h
      · exact depth_le_of_mem_pathCalls hn h
      · obtain ⟨path, -, h⟩ := List.mem_flatMap.mp h
        exact depth_le_of_mem_globCalls hn h

theorem mem_of_mem_visited {α β : Type} {f : α → Option β} {a : α} {as : List α} (h : a ∈ visited f as) :
    a ∈ as := by
  induction as with
  | nil => cases h
  | cons b as ih =>
    rw [visited, List.mem_cons] at h
    refine List.mem_cons.mpr (h.imp_right fun h => ?_)
    split_ifs at h
    · cases h
    · exact ih h

/-- A path of a single name asks for nothing behind it. -/
theorem mem_chainAsks_of_mem_pathAsks {look : Lookup} {scope name : String} {skip? : Option String} {a : Ask}
    (h : a ∈ pathAsks look t scope ⟨false, [name]⟩ skip?) : a ∈ chainAsks t name (t.scopes.length + 1) scope skip? := by
  have hd (current : String) : descentAsks look current [] = [] := rfl
  by_cases hn : name ∈ ["crate", "self", "super"]
  · simp only [List.mem_cons, List.not_mem_nil, or_false] at hn
    rcases hn with rfl | rfl | rfl
    · cases h
    · cases h
    · unfold pathAsks at h
      cases hp : parentModule? (t.moduleOf scope) <;> simp [hp, hd] at h
  · have hp : pathAsks look t scope ⟨false, [name]⟩ skip? =
        visited look.answer? (chainAsks t name (t.scopes.length + 1) scope skip?) ++
          (lookupChain look t name (t.scopes.length + 1) scope skip?).elim [] (descentAsks look · []) := by
      simp only [List.mem_cons, List.not_mem_nil, or_false, not_or] at hn
      unfold pathAsks
      grind
    rw [hp, List.mem_append] at h
    rcases h with h | h
    · exact mem_of_mem_visited h
    · cases hl : lookupChain look t name (t.scopes.length + 1) scope skip? <;> simp [hl, hd] at h

section
variable {P : String → Prop}

/-- What holds of a scope and of all that it falls back to holds of the scopes that a name is looked up in. -/
theorem holds_of_mem_chainAsks (hP : ∀ {scope around}, P scope → (t.scopeOf scope).fallback? = some around → P around)
    {name scope : String} {fuel : Nat} {skip? : Option String} (hs : P scope) {a : Ask}
    (h : a ∈ chainAsks t name fuel scope skip?) : P a.scope := by
  induction fuel generalizing scope skip? with
  | zero => cases h
  | succ fuel ih =>
    rw [chainAsks, List.mem_cons] at h
    rcases h with rfl | h
    · exact hs
    · cases ha : (t.scopeOf scope).fallback? with
      | none =>
        rw [ha] at h
        cases h
      | some around =>
        rw [ha] at h
        exact ih (hP hs ha) h

/-- Without an import, a single name is looked up in a scope and in what it falls back to. -/
theorem holds_of_mem_calls (hP : ∀ {scope around}, P scope → (t.scopeOf scope).fallback? = some around → P around)
    {bound : Nat} {scope name : String} (hs : P scope) (h : c ∈ t.calls bound scope ⟨false, [name]⟩) :
    P c.scope ∨ 0 < c.depth := by
  unfold calls pathCalls at h
  rw [List.mem_cons] at h
  rcases h with rfl | h
  · exact .inl hs
  · obtain ⟨a, ha, h⟩ := List.mem_flatMap.mp h
    refine (eq_or_depth_lt_of_mem_nameCalls h).imp_left fun h => ?_
    rw [h]
    exact holds_of_mem_chainAsks hP hs (mem_chainAsks_of_mem_pathAsks ha)

end

end

theorem resolveWithin_eq (bound : Nat) (t : ScopeTable) (scope : String) (path : Path) :
    resolveWithin bound t scope path = resolveUnder t (bound + 1) scope path none :=
  rfl

end ScopeTable
end GeneratorHost
