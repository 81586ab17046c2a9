import Mathlib.Data.List.Nodup
import GeneratorHost.Index.Build
import GeneratorHost.Proofs.Scope.Facts

/-! The records of a walk: their numbers and the declarations they are made from. -/
namespace GeneratorHost.Index
open Declaration

variable {t : ScopeTable} {tree : SourceTree}

/-! ### Surroundings -/

@[simp] theorem Surroundings.inside_scope (t : ScopeTable) (s : Surroundings) (index : Nat) (head : Head) :
    (s.inside t index head).scope = head.innerScope s.scope := by
  cases head <;> rfl

@[simp] theorem Surroundings.inside_parent (t : ScopeTable) (s : Surroundings) (index : Nat) (head : Head) :
    (s.inside t index head).parent = index := by
  cases head <;> rfl

/-- The record of a declaration itself. -/
def record (t : ScopeTable) (tree : SourceTree) (s : Surroundings) (index : Nat) (d : Declaration) : Record :=
  ⟨node tree s.parent index d, symbol? t s d⟩

theorem walk_eq (s : Surroundings) (index : Nat) (d : Declaration) :
    walk t tree s index d = record t tree s index d :: walkAll t tree (s.inside t index d.head) (index + 1) d.body := by
  obtain ⟨head, extent, attributes, header, body⟩ := d
  rw [walk, record]

/-! ### Numbers -/

/-- Records that carry consecutive numbers. -/
def Numbered (index : Nat) (rs : List Record) : Prop :=
  rs.map (·.node.index) = List.range' index rs.length

namespace Numbered

theorem nil (index : Nat) : Numbered index [] := rfl

theorem cons {index : Nat} {r : Record} {rs : List Record} (hr : r.node.index = index)
    (h : Numbered (index + 1) rs) : Numbered index (r :: rs) := by
  rw [Numbered, List.map_cons, List.length_cons, List.range'_succ, hr, h]

theorem append {index : Nat} {rs rs' : List Record} (h : Numbered index rs)
    (h' : Numbered (index + rs.length) rs') : Numbered index (rs ++ rs') := by
  rw [Numbered, List.map_append, List.length_append, h, h', List.range'_append_1]

/-- A number belongs to one record. -/
theorem eq_of_index_eq {index : Nat} {rs : List Record} (h : Numbered index rs) {r r' : Record} (hr : r ∈ rs)
    (hr' : r' ∈ rs) (he : r.node.index = r'.node.index) : r = r' := by
  have hn : (rs.map (·.node.index)).Nodup := by
    rw [h]
    exact List.nodup_range'
  exact List.inj_on_of_nodup_map hn hr hr' he

end Numbered

mutual

theorem numbered_walk (s : Surroundings) (index : Nat) (d : Declaration) :
    Numbered index (walk t tree s index d) := by
  obtain ⟨head, extent, attributes, header, body⟩ := d
  rw [walk_eq]
  exact .cons rfl (numbered_walkAll _ _ body)

theorem numbered_walkAll (s : Surroundings) (index : Nat) (ds : List Declaration) :
    Numbered index (walkAll t tree s index ds) := by
  cases ds with
  | nil =>
    rw [walkAll]
    exact .nil index
  | cons d ds =>
    rw [walkAll]
    exact .append (numbered_walk s index d) (numbered_walkAll s _ ds)

end

/-! ### Declarations -/

/-- Each record of a list of declarations stands in the walk of one of them. -/
theorem exists_walk_of_mem_walkAll {s : Surroundings} {index : Nat} {ds : List Declaration} {r : Record}
    (h : r ∈ walkAll t tree s index ds) :
    ∃ d ∈ ds, ∃ k, r ∈ walk t tree s k d ∧ walk t tree s k d ⊆ walkAll t tree s index ds := by
  induction ds generalizing index with
  | nil => simp [walkAll] at h
  | cons d ds ih =>
    simp only [walkAll, List.mem_append] at h ⊢
    rcases h with h | h
    · exact ⟨d, List.mem_cons_self, index, h, List.subset_append_left _ _⟩
    · obtain ⟨e, he, k, hr, hk⟩ := ih h
      exact ⟨e, List.mem_cons_of_mem _ he, k, hr, fun x hx => List.mem_append_right _ (hk hx)⟩

/-- What the walk goes through in declarations, each with its scope. -/
abbrev recordedAll : String → List Declaration → List (String × Declaration) :=
  nestedAll (fun _ => false) (fun _ => true)

/-- A record is made from a declaration in its scope. -/
structure MadeFrom (t : ScopeTable) (tree : SourceTree) (found : List (String × Declaration)) (r : Record)
    (s : Surroundings) (d : Declaration) : Prop where
  found : (s.scope, d) ∈ found
  eq : r = record t tree s r.node.index d

mutual

theorem exists_madeFrom_walk {s : Surroundings} {index : Nat} (d : Declaration) {r : Record}
    (hr : r ∈ walk t tree s index d) :
    ∃ s' e, MadeFrom t tree (d.nested (fun _ => false) (fun _ => true) s.scope) r s' e := by
  obtain ⟨head, extent, attributes, header, body⟩ := d
  rw [walk_eq, List.mem_cons] at hr
  rcases hr with rfl | hr
  · exact ⟨s, _, List.mem_cons_self, rfl⟩
  · obtain ⟨s', e, hf, he⟩ := exists_madeFrom_walkAll body hr
    rw [Surroundings.inside_scope] at hf
    refine ⟨s', e, List.mem_cons_of_mem _ ?_, he⟩
    simpa using hf

theorem exists_madeFrom_walkAll {s : Surroundings} {index : Nat} (ds : List Declaration) {r : Record}
    (hr : r ∈ walkAll t tree s index ds) : ∃ s' e, MadeFrom t tree (recordedAll s.scope ds) r s' e := by
  cases ds with
  | nil => simp [walkAll] at hr
  | cons d ds =>
    simp only [walkAll, List.mem_append] at hr
    rcases hr with hr | hr
    · obtain ⟨s', e, hf, he⟩ := exists_madeFrom_walk d hr
      exact ⟨s', e, List.mem_append_left _ hf, he⟩
    · obtain ⟨s', e, hf, he⟩ := exists_madeFrom_walkAll ds hr
      exact ⟨s', e, List.mem_append_right _ hf, he⟩

end

theorem tree_of_mem_walk {s : Surroundings} {index : Nat} {d : Declaration} {r : Record}
    (hr : r ∈ walk t tree s index d) : r.node.tree = tree := by
  obtain ⟨s', e, -, he⟩ := exists_madeFrom_walk d hr
  rw [he]
  rfl

namespace ParsedTree

/-- A file by the characters of its text. -/
def ofChars (tree : SourceTree) (cs : List Char) : ParsedTree :=
  ⟨tree, (Token.ofChars? (SourceFile.content cs)).bind SourceFile.ofTokens?⟩

theorem ofTree_eq_ofChars (tree : SourceTree) {cs : List Char} (h : tree.text.toList = cs) :
    ofTree tree = ofChars tree cs := by
  rw [ofTree, SourceFile.ofText?, h, ofChars]

theorem numbered_records (index : Nat) (p : ParsedTree) : Numbered index (p.records t index) := by
  rw [records]
  refine .cons rfl ?_
  cases p.file? with
  | none => exact .nil _
  | some file => exact numbered_walkAll _ _ _

theorem numbered_allRecords (index : Nat) (ps : List ParsedTree) : Numbered index (allRecords t index ps) := by
  induction ps generalizing index with
  | nil => exact .nil index
  | cons p ps ih =>
    rw [allRecords]
    exact .append (numbered_records index p) (ih _)

theorem exists_records_of_mem_allRecords {index : Nat} {ps : List ParsedTree} {r : Record}
    (h : r ∈ allRecords t index ps) :
    ∃ p ∈ ps, ∃ k, r ∈ p.records t k ∧ p.records t k ⊆ allRecords t index ps := by
  induction ps generalizing index with
  | nil => simp [allRecords] at h
  | cons p ps ih =>
    simp only [allRecords, List.mem_append] at h ⊢
    rcases h with h | h
    · exact ⟨p, List.mem_cons_self, index, h, List.subset_append_left _ _⟩
    · obtain ⟨q, hq, k, hr, hk⟩ := ih h
      exact ⟨q, List.mem_cons_of_mem _ hq, k, hr, fun x hx => List.mem_append_right _ (hk hx)⟩

theorem tree_of_mem_records {index : Nat} {p : ParsedTree} {r : Record} (h : r ∈ p.records t index) :
    r.node.tree = p.tree := by
  rw [records, List.mem_cons] at h
  rcases h with rfl | h
  · rfl
  · cases hf : p.file? with
    | none => simp [hf] at h
    | some file =>
      rw [hf] at h
      obtain ⟨d, -, k, hr, -⟩ := exists_walk_of_mem_walkAll h
      exact tree_of_mem_walk hr

/-- The declarations of all trees and what is nested in them where headers and bodies are opened. -/
def nested (header body : Head → Bool) (ps : List ParsedTree) : List (String × Declaration) :=
  ps.flatMap fun p => p.file?.elim [] (nestedAll header body p.tree.module ·.items)

end ParsedTree
end GeneratorHost.Index

namespace GeneratorHost.DeclarationIndex
open Index ParsedTree

/-- Candidates are found in the files of the host. -/
theorem tree_mem_of_mem_candidates {c : HostCompilation} {support : SupportModule} {k : Candidate}
    (h : k ∈ (build c support).candidates) : k.node.tree ∈ c.trees := by
  obtain ⟨r, hr, hk⟩ := List.mem_filterMap.mp h
  have hn : k.node = r.node := by
    unfold candidate? at hk
    split at hk
    · simp only [Option.ite_none_right_eq_some, Option.some.injEq] at hk
      rw [← hk.2]
    · cases hk
  obtain ⟨p, hp, index, hr, -⟩ := exists_records_of_mem_allRecords hr
  obtain ⟨tree, ht, rfl⟩ := List.mem_map.mp hp
  rw [hn, tree_of_mem_records hr]
  exact ht

end GeneratorHost.DeclarationIndex
