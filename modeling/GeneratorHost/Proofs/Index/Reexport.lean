import GeneratorHost.Proofs.Index.Marker
import GeneratorHost.Proofs.Scope.Calls

/-! Items that modules of the crate hand on from one to the next by re-exports. A public name leads as many
re-exports back as imports are followed, and where it stops there, the path so far is taken literally. -/
namespace GeneratorHost

namespace ScopeTable

variable {t : ScopeTable} {item : String} {modules : Nat → String} {n : Nat}

/-- The first module has an item, and each other one imports it from the one before. -/
structure HandsOn (t : ScopeTable) (item : String) (modules : Nat → String) (n : Nat) : Prop where
  mounted : ∀ i ≤ n, t.Declares "crate" (modules i)
  declared : t.Declares (scopePath [modules 0]) item
  unhidden : ∀ i < n, ¬ t.Declares (scopePath [modules (i + 1)]) item
  imported : ∀ i < n, t.imported? (scopePath [modules (i + 1)]) item = some ⟨false, ["crate", modules i, item]⟩

theorem HandsOn.descend_modules (h : HandsOn t item modules n) {i : Nat} (hi : i ≤ n) (hm : modules i ≠ "super")
    (left : Nat) (rest : List String) :
    descend (lookupLocal t (left + 1)) "crate" (modules i :: rest) =
      descend (lookupLocal t (left + 1)) (scopePath [modules i]) rest := by
  rw [descend, (h.mounted i hi).lookupLocal, Option.getD_some]
  · rfl
  · exact hm

/-- A module's name for the item leads one re-export back for every level of imports that is left. -/
theorem HandsOn.lookupLocal (h : HandsOn t item modules n) (hn : item ≠ "super")
    (hm : ∀ i ≤ n, modules i ≠ "super") {left i : Nat} (hi : i ≤ n) :
    (lookupLocal t (left + 1) (scopePath [modules i]) item none).getD (scopePath [modules i, item]) =
      scopePath [modules (i - left), item] := by
  induction left generalizing i with
  | zero =>
    cases i with
    | zero => exact congrArg (Option.getD · _) (h.declared.lookupLocal 0 none)
    | succ i =>
      have hd := declares_iff.not.mp (h.unhidden i hi)
      rw [lookupLocal_succ, h.imported i hi]
      simp [hd, resolveUnder]
  | succ left ih =>
    cases i with
    | zero =>
      rw [h.declared.lookupLocal, Nat.zero_sub]
      rfl
    | succ i =>
      have hd := declares_iff.not.mp (h.unhidden i hi)
      have hr : resolveUnder t (left + 1) (scopePath [modules (i + 1)]) ⟨false, ["crate", modules i, item]⟩ (some item) =
          some (scopePath [modules (i - left), item]) := by
        change descend _ "crate" [modules i, item] = _
        rw [h.descend_modules (by omega) (hm i (by omega)), descend, ← ih (by omega)]
        · rfl
        · exact hn
      rw [lookupLocal_succ, h.imported i hi, Nat.add_sub_add_right]
      simp [hd, hr]

end ScopeTable

namespace Index
open ParsedTree

/-- Modules of the crate that hand an item on: the first declares it, each other one re-exports it from the
one before, and no later import and no item of the name is there to hide it. -/
structure HandedOn (ps : List ParsedTree) (item : String) (modules : Nat → String) (n : Nat) : Prop where
  item_segment : ScopeTable.IsSegment item
  segments : ∀ i ≤ n, ScopeTable.IsSegment (modules i)
  mounted : ∀ i ≤ n, modules i ∈ items ps "crate"
  declared : item ∈ items ps (scopePath [modules 0])
  unhidden : ∀ i < n, item ∉ items ps (scopePath [modules (i + 1)])
  imported : ∀ i < n,
    lastNamed item (imports ps (scopePath [modules (i + 1)])) = some ⟨false, ["crate", modules i, item]⟩

variable {ps : List ParsedTree} {item : String} {modules : Nat → String} {n : Nat}

theorem HandedOn.handsOn (h : HandedOn ps item modules n) : (table ps).HandsOn item modules n where
  mounted i hi := declares_table_iff.mpr (h.mounted i hi)
  declared := declares_table_iff.mpr h.declared
  unhidden i hi := declares_table_iff.not.mpr (h.unhidden i hi)
  imported i hi := (imported?_table ps _ item).trans (h.imported i hi)

theorem HandedOn.canonicalize (h : HandedOn ps item modules n) {i : Nat} (hi : i ≤ n) :
    (table ps).canonicalize (scopePath [modules i, item]) =
      scopePath [modules (i - ScopeTable.maxDepth), item] := by
  have hc : ∀ name ∈ [modules i, item], ':' ∉ name.toList := by
    rw [List.forall_mem_cons, List.forall_mem_singleton]
    exact ⟨colon_not_mem_of_isIdentifier (h.segments i hi).1, colon_not_mem_of_isIdentifier h.item_segment.1⟩
  have hp : Path.ofMarked ["crate", modules i, item] = ⟨false, ["crate", modules i, item]⟩ := rfl
  rw [ScopeTable.canonicalize, splitColons_scopePath hc, hp,
    ← h.handsOn.lookupLocal h.item_segment.2 (fun j hj => (h.segments j hj).2) hi]
  change (ScopeTable.descend _ "crate" [modules i, item]).getD _ = _
  rw [h.handsOn.descend_modules hi (h.segments i hi).2, ScopeTable.descend]
  · rfl
  · exact h.item_segment.2

/-- The public names of an item that is handed on lead to the name that many modules before as imports are
followed: all of them to the item itself if there are no more re-exports than that. -/
theorem canonicalize_of_handedOn (ps : List ParsedTree) (item : String) (modules : Nat → String) (n : Nat)
    (h : HandedOn ps item modules n) :
    (∀ i ≤ n, (table ps).canonicalize (scopePath [modules i, item]) = scopePath [modules (i - 16), item]) ∧
      (n ≤ 16 → ∀ i ≤ n, (table ps).canonicalize (scopePath [modules i, item]) = scopePath [modules 0, item]) := by
  refine ⟨fun i hi => h.canonicalize hi, fun hn i hi => ?_⟩
  have h0 : i - ScopeTable.maxDepth = 0 := Nat.sub_eq_zero_of_le (Nat.le_trans hi hn)
  rw [h.canonicalize hi, h0]

/-- The module that many re-exports away from an item. -/
def relay (i : Nat) : String := "m" ++ toString i

/-- A struct in a module of its own, and so many modules behind it that each re-export it. -/
def relayTrees (n : Nat) : List SourceTree :=
  ⟨"src/m0.rs", "crate::m0", "pub struct X;", .e2021, _, rfl⟩ :: (List.range n).map fun i =>
    ⟨"src/" ++ relay (i + 1) ++ ".rs", "crate::" ++ relay (i + 1), "pub use crate::" ++ relay i ++ "::X;",
      .e2021, _, rfl⟩

theorem isSegment_relay {i : Nat} (hi : i ≤ 17) : ScopeTable.IsSegment (relay i) := by
  have h : ∀ i ≤ 17, UnitRoot.isIdentifier (relay i).toList ∧ relay i ≠ "super" := by decide +kernel
  exact h i hi

/-- What a file adds to the scopes of the modules that re-export: an import to its own. -/
def Relays (tree : SourceTree) : Prop :=
  ∀ i < 17, "X" ∉ items [ofTree tree] (scopePath [relay (i + 1)]) ∧
    imports [ofTree tree] (scopePath [relay (i + 1)]) =
      if tree.module = scopePath [relay (i + 1)] then [("X", ⟨false, ["crate", relay i, "X"]⟩)] else []

instance (tree : SourceTree) : Decidable (Relays tree) :=
  inferInstanceAs (Decidable (∀ i < 17, _ ∧ _))

/-- Some files at a time, for all of them together are much to read. -/
theorem relays_of_mem {tree : SourceTree} (h : tree ∈ relayTrees 17) : Relays tree := by
  have hsplit : relayTrees 17 =
      (relayTrees 17).take 6 ++ ((relayTrees 17).drop 6).take 6 ++ (relayTrees 17).drop 12 := rfl
  have h0 : ∀ t ∈ (relayTrees 17).take 6, Relays t := by decide +kernel
  have h1 : ∀ t ∈ ((relayTrees 17).drop 6).take 6, Relays t := by decide +kernel
  have h2 : ∀ t ∈ (relayTrees 17).drop 12, Relays t := by decide +kernel
  rw [hsplit, List.mem_append, List.mem_append] at h
  rcases h with (h | h) | h
  · exact h0 tree h
  · exact h1 tree h
  · exact h2 tree h

theorem imports_map_ofTree (trees : List SourceTree) (scope : String) :
    imports (trees.map ofTree) scope = trees.flatMap fun tree => imports [ofTree tree] scope := by
  simp only [imports, facts, List.filterMap_flatMap, List.flatMap_map, List.flatMap_singleton]

theorem mem_items_map_ofTree {trees : List SourceTree} {scope name : String} :
    name ∈ items (trees.map ofTree) scope ↔ ∃ tree ∈ trees, name ∈ items [ofTree tree] scope := by
  simp only [items, facts, List.filterMap_flatMap, List.flatMap_map, List.flatMap_singleton, List.mem_flatMap]

theorem handedOn_relayTrees : HandedOn ((relayTrees 17).map ofTree) "X" relay 17 := by
  have hm : ∀ i ≤ 17, ∃ tree ∈ (relayTrees 17)[i]?, relay i ∈ items [ofTree tree] "crate" := by decide +kernel
  have hd : ∃ tree ∈ relayTrees 17, "X" ∈ items [ofTree tree] (scopePath [relay 0]) := by decide +kernel
  have hone : ∀ i < 17, ((relayTrees 17).flatMap fun tree => if tree.module = scopePath [relay (i + 1)] then
      [("X", (⟨false, ["crate", relay i, "X"]⟩ : Path))] else []) = [("X", ⟨false, ["crate", relay i, "X"]⟩)] := by
    decide +kernel
  refine ⟨⟨by decide +kernel, by decide⟩, fun i hi => isSegment_relay hi, fun i hi => ?_,
    mem_items_map_ofTree.mpr hd, fun i hi h => ?_, fun i hi => ?_⟩
  · obtain ⟨tree, ht, hx⟩ := hm i hi
    exact mem_items_map_ofTree.mpr ⟨tree, List.mem_of_getElem? ht, hx⟩
  · obtain ⟨tree, ht, hx⟩ := mem_items_map_ofTree.mp h
    exact (relays_of_mem ht i hi).1 hx
  · have hi' : imports ((relayTrees 17).map ofTree) (scopePath [relay (i + 1)]) =
        [("X", ⟨false, ["crate", relay i, "X"]⟩)] := by
      rw [imports_map_ofTree, ← hone i hi]
      exact List.flatMap_congr fun tree ht => (relays_of_mem ht i hi).2
    rw [hi']
    rfl

theorem canonicalize_relayTrees :
    HandedOn ((relayTrees 17).map ofTree) "X" relay 17 ∧
      (table ((relayTrees 17).map ofTree)).canonicalize "crate::m17::X" = "crate::m1::X" ∧
      (table ((relayTrees 17).map ofTree)).canonicalize "crate::m16::X" = "crate::m0::X" := by
  have h := (canonicalize_of_handedOn _ "X" relay 17 handedOn_relayTrees).1
  exact ⟨handedOn_relayTrees, h 17 (by decide), h 16 (by decide)⟩

/-- Chains of re-exports are not followed to the end, whatever their length. -/
theorem not_followed_to_end : ¬ ∀ ps item modules n, HandedOn ps item modules n →
    (table ps).canonicalize (scopePath [modules n, item]) = scopePath [modules 0, item] := by
  intro h
  have h := h _ "X" relay 17 handedOn_relayTrees
  rw [handedOn_relayTrees.canonicalize (Nat.le_refl 17)] at h
  exact absurd h (by decide)

end Index
end GeneratorHost
