import GeneratorHost.Proofs.Index.Apart
import GeneratorHost.Proofs.Scope.Tree

/-! What stands in the bodies of functions, seen from elsewhere. The scope of a body is known by its path alone,
so it is as well the scope of a module of that path, and that of any other function of that name. -/
namespace GeneratorHost

/-- A fact that speaks of a scope and of what is named below it, and of nothing else. -/
def ScopeFact.Below (scope : String) (f : ScopeFact) : Prop :=
  ∀ other, f.around? = some other ∨ f.added? = some other → Within scope other

namespace Declaration

theorem below_of_mem_headFacts {scope outer : String} (ho : Within outer scope) {head : Head} {f : ScopeFact}
    (h : f ∈ head.facts scope) : f.Below outer := by
  rintro other (ha | ha)
  · rwa [Head.around?_of_mem_facts h other ha]
  · rw [Head.added?_of_mem_facts h other ha]
    exact ho.innerScope head

mutual

/-- What the collector finds in a declaration speaks of nothing above its scope. -/
theorem below_of_mem_collected {scope outer : String} (ho : Within outer scope) {d : Declaration} {f : ScopeFact}
    (h : f ∈ facts (collected scope d)) : f.Below outer := by
  obtain ⟨head, extent, attributes, header, body⟩ := d
  rw [collected_eq, facts_cons, facts_append, List.mem_append, List.mem_append] at h
  rcases h with h | h | h
  · exact below_of_mem_headFacts ho h
  · split_ifs at h
    · exact below_of_mem_collectedAll (ho.innerScope head) h
    · cases h
  · split_ifs at h
    · exact below_of_mem_collectedAll (ho.innerScope head) h
    · cases h

theorem below_of_mem_collectedAll {scope outer : String} (ho : Within outer scope) {ds : List Declaration}
    {f : ScopeFact} (h : f ∈ facts (collectedAll scope ds)) : f.Below outer := by
  cases ds with
  | nil => cases h
  | cons d ds =>
    rw [collectedAll_cons, facts_append, List.mem_append] at h
    rcases h with h | h
    · exact below_of_mem_collected ho h
    · exact below_of_mem_collectedAll ho h

end

end Declaration

/-! ### Declarations without what is dropped from the bodies of functions -/

/-- Functions and methods. -/
def Head.isFunction : Head → Bool
  | fn _ | method _ => true
  | _ => false

namespace Declaration

mutual

/-- A declaration without the declarations that are dropped from the bodies of functions in it. Of what stands
in such a body itself, any declaration may be dropped. -/
def stripped (drop : String → Declaration → Bool) (inBody : Bool) (scope : String) : Declaration → Declaration
  | ⟨head, extent, attributes, header, body⟩ =>
    ⟨head, extent, attributes, strippedAll drop inBody (head.innerScope scope) header,
      strippedAll drop (inBody || head.isFunction) (head.innerScope scope) body⟩

def strippedAll (drop : String → Declaration → Bool) (inBody : Bool) (scope : String) :
    List Declaration → List Declaration
  | [] => []
  | d :: ds =>
    if inBody && drop scope d then strippedAll drop inBody scope ds
    else stripped drop inBody scope d :: strippedAll drop inBody scope ds

end

mutual

/-- The scopes that declarations are dropped from. -/
def touched (drop : String → Declaration → Bool) (inBody : Bool) (scope : String) : Declaration → List String
  | ⟨head, _, _, header, body⟩ =>
    touchedAll drop inBody (head.innerScope scope) header ++
      touchedAll drop (inBody || head.isFunction) (head.innerScope scope) body

def touchedAll (drop : String → Declaration → Bool) (inBody : Bool) (scope : String) :
    List Declaration → List String
  | [] => []
  | d :: ds =>
    (if inBody && drop scope d then [scope] else touched drop inBody scope d) ++ touchedAll drop inBody scope ds

end

section
variable {α : Type} {g : ScopeFact → Option α} {drop : String → Declaration → Bool}

mutual

/-- Whoever does not look below the scopes that declarations are dropped from finds the same facts. -/
theorem filterMap_facts_stripped {inBody : Bool} {scope : String} (d : Declaration)
    (hg : ∀ s ∈ touched drop inBody scope d, ∀ f, f.Below s → g f = none) :
    (facts (collected scope (stripped drop inBody scope d))).filterMap g = (facts (collected scope d)).filterMap g := by
  obtain ⟨head, extent, attributes, header, body⟩ := d
  simp only [touched, List.forall_mem_append] at hg
  have hh := filterMap_facts_strippedAll header hg.1
  have hb := filterMap_facts_strippedAll body hg.2
  rw [stripped, collected_eq, collected_eq]
  simp only [facts_cons, facts_append, List.filterMap_append]
  congr 2
  · split_ifs
    · exact hh
    · rfl
  · split_ifs
    · exact hb
    · rfl

theorem filterMap_facts_strippedAll {inBody : Bool} {scope : String} (ds : List Declaration)
    (hg : ∀ s ∈ touchedAll drop inBody scope ds, ∀ f, f.Below s → g f = none) :
    (facts (collectedAll scope (strippedAll drop inBody scope ds))).filterMap g =
      (facts (collectedAll scope ds)).filterMap g := by
  cases ds with
  | nil => rw [strippedAll]
  | cons d ds =>
    rw [touchedAll, List.forall_mem_append] at hg
    have hs := filterMap_facts_strippedAll ds hg.2
    rw [strippedAll, collectedAll_cons, facts_append, List.filterMap_append]
    by_cases hd : inBody && drop scope d
    · rw [if_pos hd, List.forall_mem_singleton] at hg
      -- All that goes with a dropped declaration speaks of the scope it stood in or of what is below.
      have hn : (facts (collected scope d)).filterMap g = [] :=
        List.filterMap_eq_nil_iff.mpr fun f hf => hg.1 f (below_of_mem_collected (.refl scope) hf)
      rw [if_pos hd, hs, hn, List.nil_append]
    · rw [if_neg hd] at hg
      rw [if_neg hd, collectedAll_cons, facts_append, List.filterMap_append, hs, filterMap_facts_stripped d hg.1]

end

end

end Declaration

/-! ### Trees -/

namespace Index
open Declaration

namespace ParsedTree

/-- A tree without the declarations that are dropped from the bodies of its functions. -/
def stripped (drop : String → Declaration → Bool) (p : ParsedTree) : ParsedTree :=
  ⟨p.tree, p.file?.map fun file => ⟨strippedAll drop false p.tree.module file.items⟩⟩

/-- The scopes that declarations are dropped from. -/
def touched (drop : String → Declaration → Bool) (p : ParsedTree) : List String :=
  p.file?.elim [] (touchedAll drop false p.tree.module ·.items)

end ParsedTree

open ParsedTree

/-- A scope that declarations are dropped from, or that is named below such a scope. -/
def Touched (drop : String → Declaration → Bool) (ps : List ParsedTree) (scope : String) : Prop :=
  ∃ p ∈ ps, ∃ s ∈ p.touched drop, Within s scope

instance (drop : String → Declaration → Bool) (ps : List ParsedTree) : DecidablePred (Touched drop ps) :=
  fun _ => inferInstanceAs (Decidable (∃ _ ∈ _, _))

variable {ps : List ParsedTree} {drop : String → Declaration → Bool} {scope : String}

theorem filterMap_fileFacts_stripped {α : Type} {g : ScopeFact → Option α} {p : ParsedTree}
    (hg : ∀ s ∈ p.touched drop, ∀ f, f.Below s → g f = none) :
    (ScopeTable.fileFacts (p.stripped drop).tree.module (p.stripped drop).file?).filterMap g =
      (ScopeTable.fileFacts p.tree.module p.file?).filterMap g := by
  obtain ⟨tree, file?⟩ := p
  rw [ScopeTable.fileFacts, ScopeTable.fileFacts, List.filterMap_append, List.filterMap_append]
  cases file? with
  | none => rfl
  | some file => exact congrArg _ (filterMap_facts_strippedAll file.items hg)

/-- Facts about a scope that nothing is dropped from, nor from a scope around it, stay as they are. -/
theorem filterMap_facts_map_stripped {α : Type} {g : ScopeFact → Option α} (hs : ¬ Touched drop ps scope)
    (hg : ∀ f, g f ≠ none → f.around? = some scope ∨ f.added? = some scope) :
    (ParsedTree.facts (ps.map (ParsedTree.stripped drop))).filterMap g = (ParsedTree.facts ps).filterMap g := by
  rw [ParsedTree.facts, ParsedTree.facts, List.flatMap_map, List.filterMap_flatMap, List.filterMap_flatMap]
  refine List.flatMap_congr fun p hp => filterMap_fileFacts_stripped fun s ht f hf => ?_
  by_contra h
  exact hs ⟨p, hp, s, ht, hf scope (hg f h)⟩

/-- Scopes that are untouched fall back to such scopes alone. -/
theorem not_touched_of_fallback? {around : String} (hs : ¬ Touched drop ps scope)
    (h : ((table ps).scopeOf scope).fallback? = some around) : ¬ Touched drop ps around := by
  rintro ⟨p, hp, s, ht, hw⟩
  obtain ⟨name, rfl⟩ := (rooted_table ps).named h
  exact hs ⟨p, hp, s, ht, hw.qualify name⟩

theorem alikeAt_stripped (hs : ¬ Touched drop ps scope) :
    ScopeTable.AlikeAt (table ps) (table (ps.map (ParsedTree.stripped drop))) scope := by
  have hplace {scope : String} (hs : ¬ Touched drop ps scope) :
      (table (ps.map (ParsedTree.stripped drop))).place? scope = (table ps).place? scope := by
    rw [place?_table, place?_table, filterMap_facts_map_stripped hs]
    intro f h
    cases f <;> grind [ScopeFact.opens?, ScopeFact.around?, ScopeFact.added?]
  refine alikeAt_table ?_ (hplace hs) (fun name => ?_) ?_ ?_
  · exact ScopeTable.moduleOf_eq_of_place? (rooted_table ps) (rooted_table _) (P := fun s => ¬ Touched drop ps s)
      not_touched_of_fallback? hplace hs
  · rw [items, items, filterMap_facts_map_stripped hs]
    intro f h
    cases f <;> grind [ScopeFact.item?, ScopeFact.around?]
  · refine filterMap_facts_map_stripped hs fun f h => ?_
    cases f <;> grind [ScopeFact.binding?, ScopeFact.around?]
  · refine filterMap_facts_map_stripped hs fun f h => ?_
    cases f <;> grind [ScopeFact.glob?, ScopeFact.around?]

/-- A single name resolves as if the bodies of functions did not hold what is dropped from them, in every scope
but those that it is dropped from and those below them, if no import that is followed leads to such a scope. -/
theorem resolve_stripped (ps : List ParsedTree) (drop : String → Declaration → Bool) {scope name : String}
    (hs : ¬ Touched drop ps scope)
    (hc : ∀ c ∈ (table ps).calls ScopeTable.maxDepth scope ⟨false, [name]⟩, 0 < c.depth → ¬ Touched drop ps c.scope) :
    (table (ps.map (ParsedTree.stripped drop))).resolve scope ⟨false, [name]⟩ =
      (table ps).resolve scope ⟨false, [name]⟩ := by
  refine ScopeTable.resolveWithin_eq_of_alikeAt (shareFuel_table _ _) fun c h => alikeAt_stripped ?_
  rcases ScopeTable.holds_of_mem_calls (P := fun s => ¬ Touched drop ps s) not_touched_of_fallback? hs h with h' | h'
  · exact h'
  · exact hc c h h'

/-- A struct in the body of a function is seen neither from the module around nor from another function. -/
theorem resolve_stripped_siblings :
    let ps := [ofTree ⟨"src/lib.rs", "crate",
      "fn f() \x7b struct A; \x7d fn g() \x7b struct B; use crate::m::C; \x7d mod m \x7b pub struct C; \x7d", .e2021, _, rfl⟩]
    let drop (scope : String) (_ : Declaration) : Bool := scope = "crate::f"
    (∀ scope ∈ ["crate", "crate::g"], ¬ Touched drop ps scope) ∧
      (∀ scope ∈ ["crate", "crate::g"], ∀ name ∈ ["A", "B", "C"],
        (table (ps.map (ParsedTree.stripped drop))).resolve scope ⟨false, [name]⟩ =
          (table ps).resolve scope ⟨false, [name]⟩) ∧
      (table ps).resolve "crate::f" ⟨false, ["A"]⟩ = some "crate::f::A" ∧
      (table ps).resolve "crate::g" ⟨false, ["A"]⟩ = some "A" := by
  intro ps drop
  obtain ⟨hs, hc, hr⟩ : (∀ scope ∈ ["crate", "crate::g"], ¬ Touched drop ps scope) ∧
      (∀ scope ∈ ["crate", "crate::g"], ∀ name ∈ ["A", "B", "C"],
        ∀ c ∈ (table ps).calls ScopeTable.maxDepth scope ⟨false, [name]⟩, 0 < c.depth → ¬ Touched drop ps c.scope) ∧
      (table ps).resolve "crate::f" ⟨false, ["A"]⟩ = some "crate::f::A" ∧
      (table ps).resolve "crate::g" ⟨false, ["A"]⟩ = some "A" := by
    decide +kernel
  exact ⟨hs, fun scope h name hn => resolve_stripped ps drop (hs scope h) (hc scope h name hn), hr⟩

/-- The names that a function declares in its body. -/
def bodyItems (scope : String) (d : Declaration) : List String :=
  (Declaration.facts (collectedAll (d.head.innerScope scope) d.body)).filterMap
    (ScopeFact.item? (d.head.innerScope scope))

/-- A declaration, by the stretches of text that it and all inside it cover. -/
def extents (x : String × Declaration) : List Extent :=
  (x.2.nested (fun _ => true) (fun _ => true) x.1).map fun y => y.2.extent

/-- Two functions, neither of them inside the other. -/
structure Beside (x y : String × Declaration) : Prop where
  left : x.2.head.isFunction
  right : y.2.head.isFunction
  not_left : x ∉ y.2.nested (fun _ => true) (fun _ => true) y.1
  not_right : y ∉ x.2.nested (fun _ => true) (fun _ => true) x.1

/-- Function bodies are not all kept apart. A module sees what stands in the body of a function of its name, and a
method what stands in the body of another method of its name. -/
theorem bodies_not_apart :
    (¬ ∀ (tree : SourceTree) (scope name : String), scope ∈ (ofTree tree).moduleScopes →
      (table [(ofTree tree).stripped fun _ _ => true]).resolve scope ⟨false, [name]⟩ =
        (table [ofTree tree]).resolve scope ⟨false, [name]⟩) ∧
    ¬ ∀ (tree : SourceTree), ∀ x ∈ collected [ofTree tree], ∀ y ∈ collected [ofTree tree], Beside x y →
      ∀ name ∈ bodyItems x.1 x.2, (table [ofTree tree]).resolve (y.2.head.innerScope y.1) ⟨false, [name]⟩ ≠
        some (qualify (x.2.head.innerScope x.1) name) := by
  constructor
  · let tree : SourceTree :=
      ⟨"src/lib.rs", "crate", "mod f \x7b\x7d\nfn f() \x7b struct Inner; \x7d\n", .e2021, _, rfl⟩
    have hm : "crate::f" ∈ (ofTree tree).moduleScopes := by decide +kernel
    have hr : (table [(ofTree tree).stripped fun _ _ => true]).resolve "crate::f" ⟨false, ["Inner"]⟩ ≠
        (table [ofTree tree]).resolve "crate::f" ⟨false, ["Inner"]⟩ := by decide +kernel
    exact fun h => hr (h tree "crate::f" "Inner" hm)
  · let tree : SourceTree := ⟨"src/lib.rs", "crate",
      "struct A; struct B; impl A \x7b fn new() \x7b struct Inner; \x7d \x7d impl B \x7b fn new() \x7b\x7d \x7d", .e2021, _, rfl⟩
    let seen (x : String × Declaration) : Bool × String × List String :=
      (x.2.head.isFunction, x.2.head.innerScope x.1, bodyItems x.1 x.2)
    obtain ⟨hx, hy, he, hr⟩ : (collected [ofTree tree])[3]?.map seen = some (true, "crate::new", ["Inner"]) ∧
        (collected [ofTree tree])[6]?.map seen = some (true, "crate::new", []) ∧
        (∀ x ∈ (collected [ofTree tree])[3]?, ∀ y ∈ (collected [ofTree tree])[6]?,
          x.2.extent ∉ extents y ∧ y.2.extent ∉ extents x) ∧
        (table [ofTree tree]).resolve "crate::new" ⟨false, ["Inner"]⟩ = some "crate::new::Inner" := by
      decide +kernel
    obtain ⟨x, hx, hsx⟩ := Option.map_eq_some_iff.mp hx
    obtain ⟨y, hy, hsy⟩ := Option.map_eq_some_iff.mp hy
    obtain ⟨hnx, hny⟩ := he x hx y hy
    simp only [seen, Prod.mk.injEq] at hsx hsy
    have hb : Beside x y :=
      ⟨hsx.1, hsy.1, fun h => hnx (List.mem_map_of_mem h), fun h => hny (List.mem_map_of_mem h)⟩
    intro h
    refine h tree x (List.mem_of_getElem? hx) y (List.mem_of_getElem? hy) hb "Inner" ?_ ?_
    · rw [hsx.2.2]
      exact List.mem_singleton_self _
    · rw [hsy.2.1, hsx.2.1, hr]
      rfl

end Index
end GeneratorHost
