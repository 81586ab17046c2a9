import GeneratorHost.Proofs.Index.Marker
import GeneratorHost.Proofs.Scope.Grounded

/-! What a table of parsed trees holds at a scope is settled by the facts that concern the scope. -/
namespace GeneratorHost.Index.ParsedTree

variable {ps qs : List ParsedTree} {scope : String}

theorem place?_table (ps : List ParsedTree) (scope : String) :
    (table ps).place? scope = ((facts ps).filterMap (ScopeFact.opens? scope)).head? := by
  rw [table_eq]
  exact (ScopeTable.place?_applyAll (facts ps) {} scope).trans Option.none_or

theorem globs_table (ps : List ParsedTree) (scope : String) :
    ((table ps).scopeOf scope).globs = (facts ps).filterMap (ScopeFact.glob? scope) := by
  rw [table_eq]
  exact (ScopeTable.globs_applyAll (facts ps) {} scope).trans (List.nil_append _)

theorem trait?_table_facts (ps : List ParsedTree) (name : String) :
    (table ps).trait? name = lastNamed name ((facts ps).filterMap ScopeFact.trait?) := by
  rw [table_eq]
  exact (ScopeTable.trait?_applyAll (facts ps) {} name).trans Option.or_none

theorem grounded_facts (ps : List ParsedTree) (t : ScopeTable) : ScopeTable.Grounded (facts ps) t := by
  induction ps generalizing t with
  | nil => trivial
  | cons p ps ih =>
    rw [facts, List.flatMap_cons, ScopeTable.grounded_append]
    exact ⟨ScopeTable.grounded_fileFacts _ _ t, ih _⟩

theorem rooted_table (ps : List ParsedTree) : (table ps).Rooted := by
  have h := ScopeTable.Rooted.empty.applyAll (grounded_facts ps {})
  rw [table_eq]
  exact ⟨h.own, h.named, h.present, h.same⟩

/-- Tables are alike at a scope if the facts of one say of it what those of the other say. -/
theorem alikeAt_table (hm : (table qs).moduleOf scope = (table ps).moduleOf scope)
    (hp : (table qs).place? scope = (table ps).place? scope)
    (hi : ∀ name, name ∈ items qs scope ↔ name ∈ items ps scope) (hb : imports qs scope = imports ps scope)
    (hg : (facts qs).filterMap (ScopeFact.glob? scope) = (facts ps).filterMap (ScopeFact.glob? scope)) :
    ScopeTable.AlikeAt (table ps) (table qs) scope where
  module := hm
  fallback := ScopeTable.fallback?_scopeOf_congr hp
  items name := by rw [declares_table_iff, declares_table_iff, hi]
  imports name := by rw [imported?_table, imported?_table, hb]
  globs := by rw [globs_table, globs_table, hg]

theorem shareFuel_table (ps qs : List ParsedTree) : ScopeTable.ShareFuel (table ps) (table qs) :=
  (rooted_table ps).falls.shareFuel (rooted_table qs).falls

end GeneratorHost.Index.ParsedTree
