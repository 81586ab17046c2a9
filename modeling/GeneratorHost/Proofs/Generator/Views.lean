import Mathlib.Data.Option.Defs
import GeneratorHost.Proofs.Generator.Memory
import GeneratorHost.Proofs.Index.Preorder
import GeneratorHost.Proofs.Text.Lossy

/-! What generators see: the views that a unit reads are those of the records of the index, in their order, and their
parents are among them. -/
namespace GeneratorHost
open Index

/-- A view has all that generators see of a symbol. -/
structure Symbol.Shows (s : Symbol) (v : SymbolView) : Prop where
  kind : v.kind = s.kind.label
  name : v.name = s.name
  qualifiedName : v.qualifiedName = s.qualifiedName
  nameSpace : v.nameSpace = s.nameSpace
  attributes : v.attributes = s.attributes.map (·.path)
  interfaces : v.interfaces = s.interfaces

/-- A view has all that generators see of a record at some place, and a symbol if the record has one. -/
structure Record.Shows (r : Record) (index : Nat) (v : DeclarationView) : Prop where
  index : v.index = index
  kind : v.kind = r.node.kind.label
  file : v.file = r.node.tree.path
  text : v.text = r.node.text
  extent : v.extent = r.node.extent
  parent : v.parent? = r.node.parent?
  symbol : Option.Rel Symbol.Shows r.symbol? v.symbol?

/-- Texts come through the boundary as they are. -/
theorem Symbol.shows_toView (s : Symbol) : s.Shows (RawSymbol.ofSymbol s).toView where
  kind := RawText.toText_ofString _
  name := RawText.toText_ofString _
  qualifiedName := RawText.toText_ofString _
  nameSpace := RawText.toText_ofString _
  attributes := by simp [RawSymbol.toView, RawSymbol.ofSymbol]
  interfaces := by simp [RawSymbol.toView, RawSymbol.ofSymbol, Function.comp_def]

theorem Record.shows_toView (r : Record) (index : Nat) :
    r.Shows index ((RawDeclaration.ofRecord r).toView index) where
  index := rfl
  kind := RawText.toText_ofString _
  file := RawText.toText_ofString _
  text := RawText.toText_ofString _
  extent := rfl
  parent := by
    cases h : r.node.parent? with
    | none => simp [RawDeclaration.toView, RawDeclaration.ofRecord, h]
    | some parent => simp [RawDeclaration.toView, RawDeclaration.ofRecord, h]
  symbol := by
    simp only [RawDeclaration.toView, RawDeclaration.ofRecord]
    cases r.symbol? with
    | none => exact .none
    | some s => exact .some s.shows_toView

theorem getElem?_views (records : List Record) (i : Nat) :
    (unmarshal (marshal records))[i]? = records[i]?.map fun r => (RawDeclaration.ofRecord r).toView i := by
  rw [unmarshal, marshal, List.getElem?_map, List.getElem?_zipIdx, List.getElem?_map, Option.map_map, Option.map_map,
    Nat.zero_add]
  rfl

theorem Record.shows_of_getElem? {records : List Record} {i : Nat} {r : Record} {v : DeclarationView}
    (hr : records[i]? = some r) (hv : (unmarshal (marshal records))[i]? = some v) : r.Shows i v := by
  rw [getElem?_views, hr] at hv
  cases hv
  exact r.shows_toView i

/-! ### Indices -/

namespace DeclarationIndex

variable {c : HostCompilation} {support : SupportModule} {i p : Nat} {r : Record}

/-- In an index, a node stands at its number. -/
theorem index_of_getElem? (hr : (DeclarationIndex.build c support).records[i]? = some r) : r.node.index = i :=
  (ParsedTree.isListing_allRecords _ (c.trees.map ParsedTree.ofTree)).position i r hr

/-- In an index, a node stands behind the node around it. -/
theorem getElem?_of_parent (hr : (DeclarationIndex.build c support).records[i]? = some r)
    (hp : r.node.parent? = some p) :
    p < i ∧ ∃ parent, (DeclarationIndex.build c support).records[p]? = some parent ∧ parent.node.index = p := by
  have hh := ParsedTree.hangs_allRecords (ParsedTree.table (c.trees.map ParsedTree.ofTree)) 0
    (c.trees.map ParsedTree.ofTree)
  have hlt : p < i := by
    obtain hn | ⟨q, hq, -, hlt⟩ := hh.parent r (List.mem_of_getElem? hr)
    · rw [hn] at hp
      cases hp
    · rw [hp] at hq
      cases hq
      rwa [index_of_getElem? hr] at hlt
  have hp' := List.getElem?_eq_getElem (Nat.lt_trans hlt (List.getElem?_eq_some_iff.mp hr).1)
  exact ⟨hlt, _, hp', index_of_getElem? hp'⟩

end DeclarationIndex

/-- Whatever the records and whatever else is in memory, a unit reads a view of each of them, in order. In an index,
each view stands at the number of its node, and behind that of the node around it. -/
theorem views_of_records (m : Memory) (records : List Record) :
    ∃ views, m.views? (marshal records) = some views ∧ views = unmarshal (marshal records) ∧
      views.length = records.length ∧
      (∀ (i : Nat) (r : Record), records[i]? = some r → ∃ v, views[i]? = some v ∧ r.Shows i v) ∧
      ∀ (c : HostCompilation) (support : SupportModule), records = (DeclarationIndex.build c support).records →
        ∀ (i : Nat) (r : Record) (v : DeclarationView), records[i]? = some r → views[i]? = some v →
          v.index = r.node.index ∧
          ∀ p : Nat, v.parent? = some p → p < v.index ∧ ∃ (parent : Record) (w : DeclarationView),
            records[p]? = some parent ∧ r.node.parent? = some parent.node.index ∧
            views[p]? = some w ∧ w.index = p ∧ parent.Shows p w := by
  refine ⟨_, m.views?_eq _, rfl, ?_, ?_, ?_⟩
  · rw [unmarshal, marshal, List.length_map, List.length_zipIdx, List.length_map]
  · intro i r hr
    exact ⟨_, by rw [getElem?_views, hr, Option.map_some], r.shows_toView i⟩
  · rintro c support rfl i r v hr hv
    have hs := Record.shows_of_getElem? hr hv
    refine ⟨hs.index.trans (DeclarationIndex.index_of_getElem? hr).symm, fun p hp => ?_⟩
    rw [hs.parent] at hp
    obtain ⟨hlt, parent, hp', hi⟩ := DeclarationIndex.getElem?_of_parent hr hp
    refine ⟨by rwa [hs.index], parent, _, hp', by rw [hp, hi], by rw [getElem?_views, hp', Option.map_some], rfl, ?_⟩
    exact parent.shows_toView p

end GeneratorHost
