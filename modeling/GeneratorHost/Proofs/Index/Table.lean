import GeneratorHost.Proofs.Index.Walk
import GeneratorHost.Proofs.Scope.Traits

/-! The scope table of parsed trees: what its items, implementations and traits are made from. -/
namespace GeneratorHost.Index.ParsedTree
open Declaration

/-- What the collector finds in all trees. -/
def facts (ps : List ParsedTree) : List ScopeFact :=
  ps.flatMap fun p => ScopeTable.fileFacts p.tree.module p.file?

theorem table_eq (ps : List ParsedTree) : table ps = (ScopeTable.applyAll (facts ps) {}).finish := by
  have h (t : ScopeTable) : ps.foldl (fun (t : ScopeTable) p => t.addFile p.tree.module p.file?) t =
      t.applyAll (facts ps) := by
    induction ps generalizing t with
    | nil => rfl
    | cons p ps ih =>
      rw [List.foldl_cons, ih, ScopeTable.addFile_eq]
      simp only [facts, List.flatMap_cons, ScopeTable.applyAll_append]
  rw [table, h]

/-- The names of the items of a scope, as often as the trees declare them. -/
def items (ps : List ParsedTree) (scope : String) : List String := (facts ps).filterMap (ScopeFact.item? scope)

theorem declares_table_iff {ps : List ParsedTree} {scope name : String} :
    (table ps).Declares scope name ↔ name ∈ items ps scope := by
  have h : ¬ ({} : ScopeTable).Declares scope name := fun ⟨_, hs, _⟩ => nomatch hs
  rw [table_eq]
  exact (ScopeTable.declares_applyAll_iff (facts ps) {}).trans (or_iff_right h)

theorem declares_table {ps : List ParsedTree} {p : ParsedTree} (hp : p ∈ ps) {scope name : String}
    (h : .item scope name ∈ ScopeTable.fileFacts p.tree.module p.file?) :
    (table ps).Declares scope name := by
  rw [declares_table_iff, items, List.mem_filterMap]
  exact ⟨_, List.mem_flatMap.mpr ⟨p, hp, h⟩, if_pos rfl⟩

/-- What the collector finds in all trees, each with its scope, in visiting order. -/
abbrev collected : List ParsedTree → List (String × Declaration) := nested Head.opensHeader Head.opensBody

private theorem filterMap_facts {α : Type} (f : ScopeFact → Option α)
    (hm : ∀ fuel module, (ScopeTable.moduleFactsUpTo fuel module).filterMap f = []) (ps : List ParsedTree) :
    (facts ps).filterMap f = (Declaration.facts (collected ps)).filterMap f := by
  induction ps with
  | nil => rfl
  | cons p ps ih =>
    have hp : facts (p :: ps) = ScopeTable.fileFacts p.tree.module p.file? ++ facts ps := List.flatMap_cons
    have hc : collected (p :: ps) =
        p.file?.elim [] (collectedAll p.tree.module ·.items) ++ collected ps := List.flatMap_cons
    rw [hp, hc, Declaration.facts_append, List.filterMap_append, List.filterMap_append, ih,
      ScopeTable.fileFacts, List.filterMap_append, hm, List.nil_append]
    cases p.file? <;> rfl

theorem impls_table (ps : List ParsedTree) : (table ps).impls = implFacts (collected ps) := by
  have hm (fuel : Nat) (module : String) := (silent_moduleFactsUpTo fuel module).filterMap_impl?
  rw [table_eq, ← filterMap_impl?_facts, ← filterMap_facts _ hm]
  exact (ScopeTable.impls_applyAll (facts ps) {}).trans (List.nil_append _)

theorem trait?_table (ps : List ParsedTree) (name : String) :
    (table ps).trait? name = lastNamed name (traitFacts (collected ps)) := by
  have hm (fuel : Nat) (module : String) := (silent_moduleFactsUpTo fuel module).filterMap_trait?
  rw [table_eq, ← filterMap_trait?_facts, ← filterMap_facts _ hm]
  exact (ScopeTable.trait?_applyAll (facts ps) {} name).trans (Option.or_none)

/-! ### Implementations and supertraits -/

/-- An implementation among declarations provides a type with a trait. -/
def Implements (ps : List ParsedTree) (found : List (String × Declaration)) (type trait : String) : Prop :=
  ∃ fact ∈ implFacts found, (table ps).resolve fact.scope fact.subject = some type ∧
    (table ps).resolve fact.scope fact.trait = some trait

instance (ps : List ParsedTree) (found : List (String × Declaration)) (type trait : String) :
    Decidable (Implements ps found type trait) :=
  inferInstanceAs (Decidable (∃ _ ∈ _, _))

/-- The last trait of a path among declarations has another trait among its bounds. -/
def Demands (ps : List ParsedTree) (found : List (String × Declaration)) (trait bound : String) : Prop :=
  ∃ fact, lastNamed trait (traitFacts found) = some fact ∧
    ∃ path ∈ fact.supertraits, (table ps).resolve fact.scope path = some bound

theorem mem_implemented {ps : List ParsedTree} {type trait : String} :
    (type, trait) ∈ (table ps).implemented ↔ Implements ps (collected ps) type trait := by
  have hr := congrArg ScopeTable.resolve (table_eq ps)
  have hi := congrArg ScopeTable.impls (table_eq ps)
  rw [ScopeTable.resolve_finish] at hr
  rw [impls_table] at hi
  rw [table_eq, ScopeTable.mem_implemented_finish, Implements, hr, hi]
  rfl

theorem mem_directSupertraits {ps : List ParsedTree} {trait bound : String} :
    bound ∈ (table ps).directSupertraits trait ↔ Demands ps (collected ps) trait bound := by
  rw [ScopeTable.directSupertraits, trait?_table, Demands]
  cases lastNamed trait (traitFacts (collected ps)) with
  | none => simp
  | some fact => simp [List.mem_filterMap]

/-- A type has the traits of its implementations and all that these demand. -/
theorem mem_interfacesOf {ps : List ParsedTree} {type x : String} :
    x ∈ (table ps).interfacesOf type ↔
      ∃ trait, Implements ps (collected ps) type trait ∧
        Relation.ReflTransGen (Demands ps (collected ps)) trait x := by
  have hd : (fun a b => b ∈ (table ps).directSupertraits a) = Demands ps (collected ps) := by
    funext a b
    exact propext mem_directSupertraits
  rw [ScopeTable.interfacesOf, ScopeTable.mem_traitClosure, ScopeTable.ReachedFrom, hd]
  refine exists_congr fun trait => and_congr_left fun _ => ?_
  rw [← mem_implemented]
  simp

end GeneratorHost.Index.ParsedTree
