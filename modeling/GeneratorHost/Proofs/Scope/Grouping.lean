import Mathlib.Tactic.Common
import GeneratorHost.Proofs.Index.Table

/-! Groups of imports. A scope table is the same whether imports share a use tree or stand alone. -/
namespace GeneratorHost
open ScopeTable Declaration

/-! ### Use trees by their leaves -/

namespace UseTree

/-- A use tree behind names. -/
def behind (names : List String) (tree : UseTree) : UseTree := names.foldr .path tree

mutual

/-- The leaves of a use tree in order, each with the names on the way to it. -/
def leaves : UseTree → List (List String × UseTree)
  | .path first tree => tree.leaves.map fun (names, leaf) => (first :: names, leaf)
  | .group trees => leavesAll trees
  | leaf => [([], leaf)]

def leavesAll : List UseTree → List (List String × UseTree)
  | [] => []
  | tree :: trees => tree.leaves ++ leavesAll trees

end

/-- How a leaf is written without the other leaves: behind its names, where braces may stand around it. A `self` is
also written by the last of its names, which stands for the same unless it is `self` again. -/
inductive Spells : List String → UseTree → UseTree → Prop
  | plain (names : List String) (leaf : UseTree) : Spells names leaf (leaf.behind names)
  | braced (names : List String) (leaf : UseTree) : Spells names leaf (behind names (.group [leaf]))
  | itself (names : List String) {last : String} (h : last ≠ "self") :
    Spells (names ++ [last]) (.name "self") (behind names (.name last))
  | itselfAs (names : List String) {last : String} (shown : String) (h : last ≠ "self") :
    Spells (names ++ [last]) (.rename "self" shown) (behind names (.rename last shown))

end UseTree

namespace ScopeTable

/-- A path with more names behind it. -/
def extendAll (path : Path) (names : List String) : Path := names.foldl extend path

theorem extendAll_concat (path : Path) (names : List String) (last : String) :
    extendAll path (names ++ [last]) = extend (extendAll path names) last :=
  List.foldl_append

theorem getLast?_marked_extend (path : Path) (last : String) : (extend path last).marked.getLast? = some last := by
  unfold extend Path.marked
  split
  · rw [← List.cons_append, List.getLast?_concat]
  · exact List.getLast?_concat

end ScopeTable

theorem useFacts_behind (scope : String) (path : Path) (names : List String) (tree : UseTree) :
    useFacts scope path (tree.behind names) = useFacts scope (extendAll path names) tree := by
  induction names generalizing path with
  | nil => rfl
  | cons name names ih =>
    rw [UseTree.behind, List.foldr_cons, useFacts]
    exact ih (extend path name)

theorem useFacts_name {name : String} (h : name ≠ "self") (scope : String) (path : Path) :
    useFacts scope path (.name name) = [.binding scope name (extend path name)] := by
  simp only [useFacts]

theorem useFacts_rename {name : String} (h : name ≠ "self") (scope shown : String) (path : Path) :
    useFacts scope path (.rename name shown) = useFacts scope (extend path name) (.rename "self" shown) := by
  by_cases hs : shown = "_"
  · subst hs
    simp only [useFacts]
  · simp only [useFacts]

/-- A leaf adds the same however it is written. -/
theorem UseTree.Spells.useFacts_eq {names : List String} {leaf tree : UseTree} (h : Spells names leaf tree)
    (scope : String) (path : Path) : useFacts scope path tree = useFacts scope (extendAll path names) leaf := by
  cases h with
  | plain => exact useFacts_behind scope path names leaf
  | braced => rw [useFacts_behind, useFacts, useFactsAll, useFactsAll, List.append_nil]
  | itself names h =>
    rw [useFacts_behind, useFacts_name h, extendAll_concat, useFacts, getLast?_marked_extend]
  | itselfAs names shown h => rw [useFacts_behind, useFacts_rename h, extendAll_concat]

mutual

/-- A use tree adds what its leaves add, each behind its names. -/
theorem useFacts_eq_flatMap (scope : String) (path : Path) (tree : UseTree) :
    useFacts scope path tree = tree.leaves.flatMap fun (names, leaf) => useFacts scope (extendAll path names) leaf := by
  cases tree with
  | path name tree =>
    rw [useFacts, UseTree.leaves, List.flatMap_map, useFacts_eq_flatMap scope (extend path name) tree]
    rfl
  | group trees =>
    rw [useFacts, UseTree.leaves]
    exact useFactsAll_eq_flatMap scope path trees
  | name name | rename name shown | glob => exact (List.append_nil _).symm

theorem useFactsAll_eq_flatMap (scope : String) (path : Path) (trees : List UseTree) :
    useFactsAll scope path trees =
      (UseTree.leavesAll trees).flatMap fun (names, leaf) => useFacts scope (extendAll path names) leaf := by
  cases trees with
  | nil => rfl
  | cons tree trees =>
    rw [useFactsAll, UseTree.leavesAll, List.flatMap_append, useFacts_eq_flatMap, useFactsAll_eq_flatMap]

end

/-! ### Declarations -/

/-- Imports of single paths, one for each leaf of a use tree, in order. -/
def Ungroups (isGlobal : Bool) (tree : UseTree) (uses : List Declaration) : Prop :=
  List.Forall₂ (fun leaf d => ∃ single, UseTree.Spells leaf.1 leaf.2 single ∧ d.head = .use isGlobal single)
    tree.leaves uses

/-- Declarations in which imports at any depth are replaced by imports of single paths. Where declarations stand in
the text is left open. -/
inductive Regrouped : List Declaration → List Declaration → Prop
  | nil : Regrouped [] []
  | keep (head : Head) (extent extent' : Extent) (attributes : List Attribute)
    {header header' body body' ds ds' : List Declaration} (inHeader : Regrouped header header')
    (inBody : Regrouped body body') (rest : Regrouped ds ds') :
    Regrouped (⟨head, extent, attributes, header, body⟩ :: ds) (⟨head, extent', attributes, header', body'⟩ :: ds')
  | ungroup {isGlobal : Bool} {tree : UseTree} (extent : Extent) (attributes : List Attribute)
    (header body uses : List Declaration) {ds ds' : List Declaration} (leaves : Ungroups isGlobal tree uses)
    (rest : Regrouped ds ds') :
    Regrouped (⟨.use isGlobal tree, extent, attributes, header, body⟩ :: ds) (uses ++ ds')

theorem facts_collected (scope : String) (d : Declaration) : facts (collected scope d) = d.head.facts scope ++
    ((if d.head.opensHeader then facts (collectedAll (d.head.innerScope scope) d.header) else []) ++
      if d.head.opensBody then facts (collectedAll (d.head.innerScope scope) d.body) else []) := by
  obtain ⟨head, extent, attributes, header, body⟩ := d
  rw [collected, nested, facts_cons, facts_append]
  congr 2
  · split <;> rfl
  · split <;> rfl

theorem facts_collectedAll_cons (scope : String) (d : Declaration) (ds : List Declaration) :
    facts (collectedAll scope (d :: ds)) = facts (collected scope d) ++ facts (collectedAll scope ds) := by
  rw [collectedAll, nestedAll, facts_append]

theorem facts_collectedAll_append (scope : String) (ds es : List Declaration) :
    facts (collectedAll scope (ds ++ es)) = facts (collectedAll scope ds) ++ facts (collectedAll scope es) := by
  induction ds with
  | nil => rfl
  | cons d ds ih => rw [List.cons_append, facts_collectedAll_cons, ih, facts_collectedAll_cons, List.append_assoc]

/-- Nothing is looked for in an import. -/
theorem collected_of_use {d : Declaration} {isGlobal : Bool} {tree : UseTree} (h : d.head = .use isGlobal tree)
    (scope : String) : facts (collected scope d) = useFacts scope ⟨isGlobal, []⟩ tree := by
  obtain ⟨head, extent, attributes, header, body⟩ := d
  cases h
  exact List.append_nil _

/-- Imports of the leaves of a use tree add what the use tree adds. -/
theorem Ungroups.facts_eq {isGlobal : Bool} {tree : UseTree} {uses : List Declaration}
    (h : Ungroups isGlobal tree uses) (scope : String) :
    facts (collectedAll scope uses) = useFacts scope ⟨isGlobal, []⟩ tree := by
  rw [useFacts_eq_flatMap]
  unfold Ungroups at h
  generalize tree.leaves = leaves at h
  induction h with
  | nil => rfl
  | cons hd _ ih =>
    obtain ⟨single, hs, hu⟩ := hd
    rw [facts_collectedAll_cons, ih, collected_of_use hu, hs.useFacts_eq, List.flatMap_cons]

theorem Regrouped.facts_eq {ds ds' : List Declaration} (h : Regrouped ds ds') (scope : String) :
    facts (collectedAll scope ds') = facts (collectedAll scope ds) := by
  induction h generalizing scope with
  | nil => rfl
  | keep head extent extent' attributes _ _ _ inHeader inBody rest =>
    rw [facts_collectedAll_cons, facts_collectedAll_cons, facts_collected, facts_collected, inHeader, inBody, rest]
  | ungroup extent attributes header body uses leaves _ rest =>
    rw [facts_collectedAll_append, leaves.facts_eq, rest, facts_collectedAll_cons, collected_of_use rfl]

/-! ### Hosts -/

namespace Index.ParsedTree

/-- Trees that differ in the grouping of imports only. -/
structure SameButGrouping (p p' : ParsedTree) : Prop where
  module : p'.tree.module = p.tree.module
  file : Option.Rel (fun f f' => Regrouped f.items f'.items) p.file? p'.file?

theorem SameButGrouping.fileFacts_eq {p p' : ParsedTree} (h : p.SameButGrouping p') :
    fileFacts p'.tree.module p'.file? = fileFacts p.tree.module p.file? := by
  obtain ⟨tree, file?⟩ := p
  obtain ⟨tree', file'?⟩ := p'
  obtain ⟨hm, hf⟩ := h
  dsimp only at hm hf ⊢
  rw [fileFacts, fileFacts, hm]
  cases hf with
  | none => rfl
  | some hr => exact congrArg _ (hr.facts_eq tree.module)

/-- A table that files are added to. -/
def addAll (ps : List ParsedTree) (t : ScopeTable) : ScopeTable :=
  ps.foldl (fun (t : ScopeTable) p => t.addFile p.tree.module p.file?) t

/-- Files add the same to any scope table, and the table of a host is the same, if imports in them, at any depth, are
replaced by one import for each leaf of their use trees, in order. -/
theorem grouping_irrelevant {ps ps' : List ParsedTree} (h : List.Forall₂ SameButGrouping ps ps') :
    (∀ t, addAll ps' t = addAll ps t) ∧ table ps' = table ps := by
  have ha (t : ScopeTable) : addAll ps' t = addAll ps t := by
    induction h generalizing t with
    | nil => rfl
    | cons hp _ ih =>
      unfold addAll at ih ⊢
      rw [List.foldl_cons, List.foldl_cons, addFile_eq, addFile_eq, hp.fileFacts_eq, ih]
  exact ⟨ha, congrArg finish (ha {})⟩

/-- Groups in a module and in a function, with renames, globs and both forms of `self`. -/
theorem grouping_irrelevant_in_body :
    let host : SourceTree := { path := "gen.rs", module := "crate::gen", text := "", edition := .e2021 }
    let import_ (isGlobal : Bool) (tree : UseTree) : Declaration := ⟨.use isGlobal tree, default, [], [], []⟩
    let function (body : List Declaration) : Declaration := ⟨.fn "f", default, [], [], body⟩
    let grouped := [import_ false (.path "crate" (.path "rt" (.group
        [.rename "generator" "marker", .name "self", .path "inner" (.group [.glob, .rename "self" "_"])]))),
      function [import_ true (.path "a" (.group [.name "type", .rename "self" "b"]))]]
    let single := [import_ false (.path "crate" (.path "rt" (.rename "generator" "marker"))),
      import_ false (.path "crate" (.name "rt")), import_ false (.path "crate" (.path "rt" (.path "inner" .glob))),
      import_ false (.path "crate" (.path "rt" (.path "inner" (.rename "self" "_")))),
      function [import_ true (.path "a" (.name "type")), import_ true (.rename "a" "b")]]
    List.Forall₂ SameButGrouping [⟨host, some ⟨grouped⟩⟩] [⟨host, some ⟨single⟩⟩] ∧
    table [⟨host, some ⟨single⟩⟩] = table [⟨host, some ⟨grouped⟩⟩] := by
  intro host import_ function grouped single
  have hbody : Regrouped [import_ true (.path "a" (.group [.name "type", .rename "self" "b"]))]
      [import_ true (.path "a" (.name "type")), import_ true (.rename "a" "b")] := by
    refine .ungroup _ _ _ _ [_, _] (.cons ⟨_, .plain ["a"] _, rfl⟩ (.cons ⟨_, ?_, rfl⟩ .nil)) .nil
    exact .itselfAs [] "b" (by decide)
  have hs : List.Forall₂ SameButGrouping [⟨host, some ⟨grouped⟩⟩] [⟨host, some ⟨single⟩⟩] := by
    refine .cons ⟨rfl, .some ?_⟩ .nil
    refine .ungroup _ _ _ _ [_, _, _, _] (.cons ⟨_, .plain ["crate", "rt"] _, rfl⟩ (.cons ⟨_, ?_, rfl⟩
      (.cons ⟨_, .plain ["crate", "rt", "inner"] _, rfl⟩ (.cons ⟨_, .plain ["crate", "rt", "inner"] _, rfl⟩ .nil))))
      (.keep _ _ _ _ .nil hbody .nil)
    exact .itself ["crate"] (by decide)
  exact ⟨hs, (grouping_irrelevant hs).2⟩

end Index.ParsedTree
end GeneratorHost
