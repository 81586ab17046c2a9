import GeneratorHost.Index.Build
import GeneratorHost.Proofs.Index.Apart

/-! The order of the files of a host decides how nodes are numbered, and nothing else, if the files stand apart. -/
namespace GeneratorHost

/-- A node without its number and that of the node around it. -/
def Node.unnumbered (n : Node) : Node := { n with index := 0, parent? := none }

def Record.unnumbered (r : Record) : Record := ⟨r.node.unnumbered, r.symbol?⟩

def Candidate.unnumbered (c : Candidate) : Candidate := ⟨c.node.unnumbered, c.symbol⟩

namespace Index

variable {t u : ScopeTable} {tree : SourceTree}

/-! ### Walks in tables that answer alike -/

theorem attributeData_congr (h : t.SameAnswers u) : attributeData u = attributeData t := by
  funext scope a
  rw [attributeData, h.resolve, attributeData]

theorem interfaces_congr (h : t.SameAnswers u) : interfaces u = interfaces t := by
  funext kind name
  unfold interfaces
  rw [h.interfacesOf, h.supertraitsOf]

/-- The symbol of a declaration depends on where it stands, not on numbers. -/
theorem symbol?_congr (h : t.SameAnswers u) {s s' : Surroundings} (hs : s'.scope = s.scope)
    (hc : s'.container? = s.container?) : symbol? u s' = symbol? t s := by
  have hn : s'.container = s.container := by rw [Surroundings.container, hs, hc, Surroundings.container]
  funext d
  unfold symbol?
  rw [attributeData_congr h, interfaces_congr h, hs, hn]

theorem inside_container?_congr (h : t.SameAnswers u) {s s' : Surroundings} (hs : s'.scope = s.scope)
    (hc : s'.container? = s.container?) (index index' : Nat) (head : Head) :
    (s'.inside u index' head).container? = (s.inside t index head).container? := by
  have hn : s'.container = s.container := by rw [Surroundings.container, hs, hc, Surroundings.container]
  have ht : u.resolveType = t.resolveType := by
    funext scope type
    rw [ScopeTable.resolveType, h.resolve, ScopeTable.resolveType]
  cases head <;> simp only [Surroundings.inside, hs, hc, hn, ht]

mutual

/-- A walk finds the same declarations whatever their numbers. -/
theorem unnumbered_walk (h : t.SameAnswers u) {s s' : Surroundings} (hs : s'.scope = s.scope)
    (hc : s'.container? = s.container?) (index index' : Nat) (d : Declaration) :
    (walk u tree s' index' d).map Record.unnumbered = (walk t tree s index d).map Record.unnumbered := by
  obtain ⟨head, extent, attributes, header, body⟩ := d
  have hi : (s'.inside u index' head).scope = (s.inside t index head).scope := by
    rw [Surroundings.inside_scope, hs, Surroundings.inside_scope]
  rw [walk_eq, walk_eq, List.map_cons, List.map_cons,
    unnumbered_walkAll h hi (inside_container?_congr h hs hc index index' head) (index + 1) (index' + 1) body, record, record,
    symbol?_congr h hs hc]
  rfl

theorem unnumbered_walkAll (h : t.SameAnswers u) {s s' : Surroundings} (hs : s'.scope = s.scope)
    (hc : s'.container? = s.container?) (index index' : Nat) (ds : List Declaration) :
    (walkAll u tree s' index' ds).map Record.unnumbered = (walkAll t tree s index ds).map Record.unnumbered := by
  cases ds with
  | nil => rw [walkAll, walkAll]
  | cons d ds =>
    rw [walkAll, walkAll, List.map_append, List.map_append, unnumbered_walk h hs hc index index' d,
      unnumbered_walkAll h hs hc _ _ ds]

end

namespace ParsedTree

theorem unnumbered_records (h : t.SameAnswers u) (index index' : Nat) (p : ParsedTree) :
    (p.records u index').map Record.unnumbered = (p.records t index).map Record.unnumbered := by
  rw [records, records, List.map_cons, List.map_cons]
  cases p.file? with
  | none => rfl
  | some file =>
    refine congrArg₂ List.cons rfl ?_
    refine unnumbered_walkAll h ?_ ?_ _ _ file.items
    · rfl
    · rfl

theorem unnumbered_allRecords (h : t.SameAnswers u) (index : Nat) (ps : List ParsedTree) :
    (allRecords u index ps).map Record.unnumbered = ps.flatMap fun p => (p.records t 0).map Record.unnumbered := by
  induction ps generalizing index with
  | nil => rfl
  | cons p ps ih => rw [allRecords, List.map_append, ih, unnumbered_records h 0 index, List.flatMap_cons]

end ParsedTree
end Index

/-- Candidates are picked by kinds and symbols. -/
theorem DeclarationIndex.candidate?_unnumbered (marker interface : String) (r : Record) :
    candidate? marker interface r.unnumbered = (candidate? marker interface r).map Candidate.unnumbered := by
  obtain ⟨node, symbol?⟩ := r
  cases symbol? with
  | none => rfl
  | some symbol =>
    exact (apply_ite (Option.map Candidate.unnumbered) _ (some ⟨node, symbol⟩) none).symm

namespace Index
open ParsedTree

/-- The candidates of a list of records, whatever their numbers. -/
theorem unnumbered_candidates (marker interface : String) (rs : List Record) :
    (rs.filterMap (DeclarationIndex.candidate? marker interface)).map Candidate.unnumbered =
      (rs.map Record.unnumbered).filterMap (DeclarationIndex.candidate? marker interface) := by
  rw [List.map_filterMap, List.filterMap_map]
  congr 1
  funext r
  exact (DeclarationIndex.candidate?_unnumbered marker interface r).symm

/-- Hosts of the same files in any order answer every question alike, if the files stand apart, and have the
same candidates but for their numbers. -/
theorem sameAnswers_and_candidates_of_perm (c c' : HostCompilation) (hp : c.trees.Perm c'.trees)
    (ha : Apart (c.trees.map ofTree)) :
    (table (c.trees.map ofTree)).SameAnswers (table (c'.trees.map ofTree)) ∧
      ∀ support, ((DeclarationIndex.build c' support).candidates.map Candidate.unnumbered).Perm
        ((DeclarationIndex.build c support).candidates.map Candidate.unnumbered) := by
  have h := sameAnswers_of_perm hp ha
  refine ⟨h, fun support => ?_⟩
  have hr := unnumbered_allRecords (.refl (table (c.trees.map ofTree))) 0 (c.trees.map ofTree)
  have hr' := unnumbered_allRecords h 0 (c'.trees.map ofTree)
  simp only [DeclarationIndex.build, DeclarationIndex.ofParsed, unnumbered_candidates, hr, hr', h.canonicalize]
  exact ((hp.map ofTree).symm.flatMap_right _).filterMap _

set_option maxRecDepth 4000 in
open ParsedTree in
/-- A generator in a file of its own, and a function beside it. -/
theorem sameAnswers_and_candidates_reversed :
    let trees : List SourceTree := [⟨"src/lib.rs", "crate", "mod g; fn f() \x7b struct S; \x7d", .e2021, _, rfl⟩,
      ⟨"src/g.rs", "crate::g", "use crate::selfgen_rt::\x7bgenerator, SourceGenerator\x7d; #[generator] pub struct G;
        impl SourceGenerator for G \x7b\x7d", .e2021, _, rfl⟩]
    trees.Perm trees.reverse ∧ Apart (trees.map ofTree) ∧
      (table (trees.reverse.map ofTree)).resolve "crate::f" ⟨false, ["S"]⟩ = some "crate::f::S" ∧
      (DeclarationIndex.build ⟨trees.reverse, .e2021⟩ default).candidates.length = 1 := by
  intro trees
  have hm : trees.map ofTree = [ofTree trees[0], ofTree trees[1]] := rfl
  rw [ofTree_eq_ofChars trees[0] String.toList_ofList, ofTree_eq_ofChars trees[1] String.toList_ofList] at hm
  have hp : trees.Perm trees.reverse := trees.reverse_perm.symm
  have ha : Apart (trees.map ofTree) := by
    rw [hm]
    constructor <;> decide +kernel
  obtain ⟨h, hc⟩ := sameAnswers_and_candidates_of_perm ⟨trees, .e2021⟩ ⟨trees.reverse, .e2021⟩ hp ha
  have hl := (hc default).length_eq
  rw [List.length_map, List.length_map] at hl
  refine ⟨hp, ha, ?_, ?_⟩
  · rw [h.resolve, hm]
    decide +kernel
  · rw [hl, DeclarationIndex.build, hm]
    decide +kernel

end Index
end GeneratorHost
