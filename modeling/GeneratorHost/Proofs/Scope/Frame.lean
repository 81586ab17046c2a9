import GeneratorHost.Proofs.Scope.Calls

/-! What a resolution answers is settled by its calls. With a higher bound on nested imports it answers
the same if no call was cut off, and so it does in any table that is alike at the scopes asked about. -/
namespace GeneratorHost.ScopeTable

/-! ### Chains of scopes -/

/-- Scopes fall back to scopes with shorter names. -/
def Falls (t : ScopeTable) : Prop :=
  ∀ scope around, (t.scopeOf scope).fallback? = some around → around.length < scope.length

/-- The number of scopes with names that are not longer. -/
def rank (t : ScopeTable) (length : Nat) : Nat := t.scopes.countP (·.1.length ≤ length)

theorem rank_le (t : ScopeTable) (length : Nat) : t.rank length ≤ t.scopes.length := List.countP_le_length

/-- A scope that falls back is one of the table's, and it does not count for the scope around it. -/
theorem Falls.rank_lt {t : ScopeTable} (ht : t.Falls) {scope around : String}
    (h : (t.scopeOf scope).fallback? = some around) : t.rank around.length < t.rank scope.length := by
  have hl := ht scope around h
  rw [fallback?_scopeOf, Option.bind_eq_some_iff] at h
  obtain ⟨s, hs, -⟩ := h
  obtain ⟨before, behind, he, -⟩ := List.lookup_eq_some_iff.mp hs
  have hm (entries : List (String × Scope)) :
      entries.countP (·.1.length ≤ around.length) ≤ entries.countP (·.1.length ≤ scope.length) := by
    apply List.countP_mono_left
    simp only [decide_eq_true_eq]
    omega
  have hb := hm before
  have hh := hm behind
  rw [rank, rank, he, List.countP_append, List.countP_append, List.countP_cons_of_neg (by simpa using hl),
    List.countP_cons_of_pos (by simp)]
  omega

/-- Chains end where the fuel for them is not used up. -/
theorem Falls.chainAsks_eq {t : ScopeTable} (ht : t.Falls) (name : String) {fuel fuel' : Nat}
    {scope : String} (h : t.rank scope.length < fuel) (h' : t.rank scope.length < fuel') (skip? : Option String) :
    chainAsks t name fuel scope skip? = chainAsks t name fuel' scope skip? := by
  induction fuel generalizing fuel' scope skip? with
  | zero => omega
  | succ fuel ih =>
    obtain ⟨fuel', rfl⟩ := Nat.exists_eq_add_one.mpr (Nat.zero_lt_of_lt h')
    rw [chainAsks, chainAsks]
    cases hf : (t.scopeOf scope).fallback? with
    | none => rfl
    | some around =>
      have hr := ht.rank_lt hf
      exact congrArg _ (ih (by omega) (by omega) none)

/-- The search of a chain goes on behind each scope as it would begin there: no chain is cut off. -/
theorem Falls.lookupChain_eq {t : ScopeTable} (ht : t.Falls) (look : Lookup) (name scope : String)
    (skip? : Option String) :
    lookupChain look t name (t.scopes.length + 1) scope skip? =
      (look scope name skip?).or ((t.scopeOf scope).fallback?.bind fun around =>
        lookupChain look t name (t.scopes.length + 1) around none) := by
  rw [lookupChain, ← fallback?_scopeOf]
  cases look scope name skip? with
  | some found => rfl
  | none =>
    cases hf : (t.scopeOf scope).fallback? with
    | none => rfl
    | some around =>
      have hr := ht.rank_lt hf
      have hl := t.rank_le scope.length
      have hc : chainAsks t name t.scopes.length around none = chainAsks t name (t.scopes.length + 1) around none :=
        ht.chainAsks_eq name (by omega) (by omega) none
      simp only [Option.none_or, Option.bind_some]
      rw [ScopeTable.lookupChain_eq, ScopeTable.lookupChain_eq, hc]

/-- Some fuel is enough for the chains of both tables, if the fuel of each is. -/
def ShareFuel (t u : ScopeTable) : Prop :=
  ∃ fuel, ∀ name scope skip?,
    chainAsks t name (t.scopes.length + 1) scope skip? = chainAsks t name fuel scope skip? ∧
      chainAsks u name (u.scopes.length + 1) scope skip? = chainAsks u name fuel scope skip?

theorem ShareFuel.refl (t : ScopeTable) : ShareFuel t t := ⟨_, fun _ _ _ => ⟨rfl, rfl⟩⟩

theorem Falls.shareFuel {t u : ScopeTable} (ht : t.Falls) (hu : u.Falls) : ShareFuel t u := by
  refine ⟨t.scopes.length + u.scopes.length + 1, fun name scope skip? => ?_⟩
  have := t.rank_le scope.length
  have := u.rank_le scope.length
  exact ⟨ht.chainAsks_eq name (by omega) (by omega) skip?, hu.chainAsks_eq name (by omega) (by omega) skip?⟩

/-! ### Tables that are alike at a scope -/

/-- Two tables know the same of a scope. -/
structure AlikeAt (t u : ScopeTable) (scope : String) : Prop where
  module : u.moduleOf scope = t.moduleOf scope
  fallback : (u.scopeOf scope).fallback? = (t.scopeOf scope).fallback?
  items : ∀ name, u.Declares scope name ↔ t.Declares scope name
  imports : ∀ name, u.imported? scope name = t.imported? scope name
  globs : (u.scopeOf scope).globs = (t.scopeOf scope).globs

namespace AlikeAt

theorem refl (t : ScopeTable) (scope : String) : AlikeAt t t scope :=
  ⟨rfl, rfl, fun _ => Iff.rfl, fun _ => rfl, rfl⟩

theorem contains_items {t u : ScopeTable} {scope : String} (h : AlikeAt t u scope) (name : String) :
    (u.scopeOf scope).items.contains name = (t.scopeOf scope).items.contains name := by
  rw [Bool.eq_iff_iff, List.contains_iff_mem, List.contains_iff_mem, ← declares_iff, ← declares_iff]
  exact h.items name

end AlikeAt

/-! ### Paths -/

section
variable {t u : ScopeTable} {look look' : Lookup}

/-- A look-up that another table answers in the same way from a scope that it has alike. -/
structure Transfers (t u : ScopeTable) (look look' : Lookup) (a : Ask) : Prop where
  alike : AlikeAt t u a.scope
  answer : look'.answer? a = look.answer? a

theorem findSome?_chainAsks_eq {name : String} {fuel : Nat} {scope : String} {skip? : Option String}
    (h : ∀ a ∈ visited look.answer? (chainAsks t name fuel scope skip?), Transfers t u look look' a) :
    (chainAsks u name fuel scope skip?).findSome? look'.answer? =
      (chainAsks t name fuel scope skip?).findSome? look.answer? := by
  induction fuel generalizing scope skip? with
  | zero => rfl
  | succ fuel ih =>
    rw [chainAsks, visited, List.forall_mem_cons] at h
    rw [chainAsks, chainAsks, List.findSome?_cons, List.findSome?_cons, h.1.answer, h.1.alike.fallback]
    cases hl : look.answer? ⟨scope, name, skip?⟩ with
    | some found => rfl
    | none =>
      rw [hl] at h
      cases hf : (t.scopeOf scope).fallback? with
      | none => rfl
      | some around =>
        rw [hf] at h
        exact ih h.2

theorem lookupChain_eq_of_asks (hf : ShareFuel t u) {name scope : String} {skip? : Option String}
    (h : ∀ a ∈ visited look.answer? (chainAsks t name (t.scopes.length + 1) scope skip?),
      Transfers t u look look' a) :
    lookupChain look' u name (u.scopes.length + 1) scope skip? =
      lookupChain look t name (t.scopes.length + 1) scope skip? := by
  obtain ⟨fuel, hf⟩ := hf
  obtain ⟨ht, hu⟩ := hf name scope skip?
  rw [ht] at h
  rw [lookupChain_eq, lookupChain_eq, ht, hu, findSome?_chainAsks_eq h]

theorem descend_eq_of_asks {current : String} {segments : List String}
    (h : ∀ a ∈ descentAsks look current segments, look'.answer? a = look.answer? a) :
    descend look' current segments = descend look current segments := by
  fun_induction descend look current segments with
  | case1 => rfl
  | case2 current rest parent hp ih =>
    rw [descentAsks, hp] at h
    rw [descend, hp]
    exact ih h
  | case3 current rest hp => rw [descend, hp]
  | case4 current segment rest hs ih =>
    rw [descentAsks, List.forall_mem_cons, answer?_mk, answer?_mk] at h
    · rw [descend, h.1]
      · exact ih h.2
      · exact hs
    · exact hs

/-- Paths resolve alike if all that they ask for is answered alike. -/
theorem resolveVia_eq_of_asks (hf : ShareFuel t u) {scope : String} (hm : u.moduleOf scope = t.moduleOf scope)
    {path : Path} {skip? : Option String}
    (h : ∀ a ∈ pathAsks look t scope path skip?, Transfers t u look look' a) :
    resolveVia look' u scope path skip? = resolveVia look t scope path skip? := by
  have hd {current : String} {rest : List String}
      (h : ∀ a ∈ descentAsks look current rest, Transfers t u look look' a) :
      descend look' current rest = descend look current rest :=
    descend_eq_of_asks fun a ha => (h a ha).answer
  unfold pathAsks at h
  split at h
  · unfold resolveVia
    cases ‹List String› <;> rfl
  · rfl
  · exact hd h
  · rw [resolveVia, resolveVia, hm]
    exact hd h
  · rw [resolveVia, resolveVia, hm]
    cases hp : parentModule? (t.moduleOf scope) with
    | none => rfl
    | some parent =>
      rw [hp] at h
      exact hd h
  · rename_i first rest hc hs hp
    have hn : first ∉ ["crate", "self", "super"] := by grind
    rw [List.forall_mem_append] at h
    rw [resolveVia_name hn, resolveVia_name hn, lookupChain_eq_of_asks hf h.1]
    cases hl : lookupChain look t first (t.scopes.length + 1) scope skip? with
    | none => rfl
    | some found =>
      rw [hl] at h
      exact hd h.2

end

/-! ### Calls -/

section
variable {t u : ScopeTable} {extra limit : Nat}

/-- A call that goes as it did: to a scope that is alike, and either with the same bound or not cut off. -/
structure Call.Repeats (t u : ScopeTable) (extra limit : Nat) (c : Call) : Prop where
  alike : AlikeAt t u c.scope
  uncut : extra = 0 ∨ c.depth < limit

theorem resolveUnder_eq_of_calls (hf : ShareFuel t u) {left depth : Nat} (hd : depth + left = limit)
    (ih : ∀ a, (∀ c ∈ nameCalls t left depth a, c.Repeats t u extra limit) →
      (lookupLocal u (left + extra)).answer? a = (lookupLocal t left).answer? a)
    {scope : String} {path : Path} {skip? : Option String}
    (h : ∀ c ∈ pathCalls t (nameCalls t left depth) left depth scope path skip?, c.Repeats t u extra limit) :
    resolveUnder u (left + extra) scope path skip? = resolveUnder t left scope path skip? := by
  unfold pathCalls at h
  rw [List.forall_mem_cons] at h
  cases left with
  | zero =>
    obtain rfl : extra = 0 := by
      have := h.1.uncut
      rw [Call.depth] at this
      omega
    rfl
  | succ left =>
    rw [Nat.add_right_comm] at ih ⊢
    refine resolveVia_eq_of_asks hf h.1.alike.module fun a ha => ?_
    have hn : ∀ c ∈ nameCalls t (left + 1) depth a, c.Repeats t u extra limit := fun c hc =>
      h.2 c (List.mem_flatMap.mpr ⟨a, ha, hc⟩)
    refine ⟨?_, ih a hn⟩
    rw [nameCalls, List.forall_mem_cons] at hn
    exact hn.1.alike

theorem globbed_eq_of_calls (hf : ShareFuel t u) {left depth : Nat} (hd : depth + left = limit)
    (ih : ∀ a, (∀ c ∈ nameCalls t left depth a, c.Repeats t u extra limit) →
      (lookupLocal u (left + extra)).answer? a = (lookupLocal t left).answer? a)
    {scope name : String} {path : Path}
    (h : ∀ c ∈ globCalls t (nameCalls t left depth) left depth scope name path, c.Repeats t u extra limit) :
    globbed u (left + extra) scope name path = globbed t left scope name path := by
  rw [globCalls, List.forall_mem_append] at h
  rw [globbed, globbed, resolveUnder_eq_of_calls hf hd ih h.1]
  cases hr : resolveUnder t left scope path none with
  | none => rfl
  | some module =>
    rw [hr] at h
    dsimp only at h ⊢
    by_cases hm : module = scope
    · rw [if_pos hm, if_pos hm]
    · rw [if_neg hm] at h
      rw [if_neg hm, if_neg hm]
      exact ih _ h.2

/-- By induction on the levels of imports that are left: at each, the scope's own names decide alike, and
what an import leads to is asked with one level less. -/
theorem lookupLocal_eq_of_calls (hf : ShareFuel t u) {left depth : Nat} (hd : depth + left = limit) (a : Ask)
    (h : ∀ c ∈ nameCalls t left depth a, c.Repeats t u extra limit) :
    (lookupLocal u (left + extra)).answer? a = (lookupLocal t left).answer? a := by
  induction left generalizing depth a with
  | zero =>
    rw [nameCalls, List.forall_mem_singleton] at h
    obtain rfl : extra = 0 := by
      have := h.uncut
      rw [Call.depth] at this
      omega
    rfl
  | succ left ih =>
    have hd : depth + 1 + left = limit := by omega
    rw [nameCalls, List.forall_mem_cons] at h
    obtain ⟨⟨ha, -⟩, hc⟩ := h
    rw [Call.scope] at ha
    rw [Lookup.answer?, Lookup.answer?, Nat.add_right_comm, lookupLocal_succ, lookupLocal_succ,
      ha.contains_items, ha.imports, ha.globs]
    by_cases hi : (t.scopeOf a.scope).items.contains a.name
    · rw [if_pos hi, if_pos hi]
    · rw [if_neg hi] at hc
      rw [if_neg hi, if_neg hi]
      cases ht : (if a.skip? = some a.name then none else t.imported? a.scope a.name) with
      | some target =>
        rw [ht] at hc
        exact resolveUnder_eq_of_calls hf hd (fun a => ih hd a) hc
      | none =>
        rw [ht] at hc
        refine findSome?_eq_of_visited fun path hp => ?_
        exact globbed_eq_of_calls hf hd (fun a => ih hd a) fun c h => hc c (List.mem_flatMap.mpr ⟨path, hp, h⟩)

end

/-! ### Resolutions -/

variable {t u : ScopeTable} {bound : Nat} {scope : String} {path : Path}

/-- A resolution answers alike in a table that is alike at all scopes it asks about. -/
theorem resolveWithin_eq_of_alikeAt (hf : ShareFuel t u) (h : ∀ c ∈ t.calls bound scope path, AlikeAt t u c.scope) :
    resolveWithin bound u scope path = resolveWithin bound t scope path :=
  resolveUnder_eq_of_calls hf (Nat.zero_add _) (lookupLocal_eq_of_calls hf (Nat.zero_add _))
    fun c hc => ⟨h c hc, .inl rfl⟩

/-- A resolution that is not cut off by a bound answers the same under every higher one. -/
theorem resolveWithin_eq_of_depth_le (h : ∀ c ∈ t.calls bound scope path, c.depth ≤ bound) {bound' : Nat}
    (hb : bound ≤ bound') : resolveWithin bound' t scope path = resolveWithin bound t scope path := by
  obtain ⟨extra, rfl⟩ := Nat.exists_eq_add_of_le hb
  have hf := ShareFuel.refl t
  rw [resolveWithin_eq, resolveWithin_eq, Nat.add_right_comm]
  exact resolveUnder_eq_of_calls hf (Nat.zero_add _) (lookupLocal_eq_of_calls hf (Nat.zero_add _))
    fun c hc => ⟨.refl t c.scope, .inr (Nat.lt_succ_of_le (h c hc))⟩

/-- Two modules that import all of each other's names, and each a name that the other one imports. -/
def mutualImports : ScopeTable :=
  applyAll [.module "crate", .item "crate" "a", .item "crate" "b", .module "crate::a", .module "crate::b",
    .binding "crate::a" "X" ⟨false, ["super", "b", "X"]⟩, .binding "crate::b" "X" ⟨false, ["super", "a", "X"]⟩,
    .glob "crate::a" ⟨false, ["super", "b"]⟩, .glob "crate::b" ⟨false, ["super", "a"]⟩, .item "crate::b" "Y"] {}

/-- An item behind a glob import is a single import away. -/
theorem resolve_mutualImports :
    (∀ c ∈ mutualImports.calls 1 "crate" ⟨false, ["a", "Y"]⟩, c.depth ≤ 1) ∧ 1 ≤ maxDepth ∧
      resolveWithin maxDepth mutualImports "crate" ⟨false, ["a", "Y"]⟩ = some "crate::b::Y" := by
  have hc : ∀ c ∈ mutualImports.calls 1 "crate" ⟨false, ["a", "Y"]⟩, c.depth ≤ 1 := by decide +kernel
  have hr : resolveWithin 1 mutualImports "crate" ⟨false, ["a", "Y"]⟩ = some "crate::b::Y" := by decide +kernel
  have hm : 1 ≤ maxDepth := by decide
  exact ⟨hc, hm, (resolveWithin_eq_of_depth_le hc hm).trans hr⟩

/-- With the bound below, the glob import is cut off and the name is taken literally. -/
example : resolveWithin 0 mutualImports "crate" ⟨false, ["a", "Y"]⟩ = some "crate::a::Y" := by decide

end GeneratorHost.ScopeTable
