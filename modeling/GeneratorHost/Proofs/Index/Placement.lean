import Mathlib.Logic.Relation
import GeneratorHost.Proofs.Grammar.Items
import GeneratorHost.Proofs.Index.Table

/-! The walk that records declarations names every item where the collector declared it. -/
namespace GeneratorHost

/-- Kinds of items, which are named in a scope. A macro counts where it has a name. -/
def Kind.isItem : Kind → Bool
  | .module | .struct | .enum | .union | .trait | .traitAlias | .fn | .const | .static | .typeAlias
  | .itemMacro | .foreignFn | .foreignStatic | .foreignType => true
  | _ => false

/-- A symbol of an item other than a constant without a name. -/
structure Symbol.IsItem (symbol : Symbol) : Prop where
  kind : symbol.kind.isItem
  named : symbol.kind = .const → symbol.name ≠ "_"

namespace Index

/-- A record is above another in a list of records. -/
def Encloses (rs : List Record) : Record → Record → Prop :=
  Relation.TransGen fun outer inner => outer ∈ rs ∧ inner.node.parent? = some outer.node.index

open Declaration

variable {t : ScopeTable} {tree : SourceTree}

/-! ### Enclosing records -/

mutual

/-- The record that a walk stands below encloses all its records. -/
theorem encloses_walk {rs : List Record} (d : Declaration) {s : Surroundings} {index : Nat} {outer : Record}
    (hw : walk t tree s index d ⊆ rs) (ho : outer ∈ rs) (hp : outer.node.index = s.parent) :
    ∀ r ∈ walk t tree s index d, Encloses rs outer r := by
  obtain ⟨head, extent, attributes, header, body⟩ := d
  rw [walk_eq] at hw ⊢
  rw [List.cons_subset] at hw
  rw [List.forall_mem_cons]
  have hs : Encloses rs outer (record t tree s index ⟨head, extent, attributes, header, body⟩) :=
    .single ⟨ho, by rw [hp]; rfl⟩
  refine ⟨hs, fun r hr => hs.trans ?_⟩
  exact encloses_walkAll body hw.2 hw.1 (Surroundings.inside_parent t s index head).symm r hr

theorem encloses_walkAll {rs : List Record} (ds : List Declaration) {s : Surroundings} {index : Nat}
    {outer : Record} (hw : walkAll t tree s index ds ⊆ rs) (ho : outer ∈ rs)
    (hp : outer.node.index = s.parent) : ∀ r ∈ walkAll t tree s index ds, Encloses rs outer r := by
  cases ds with
  | nil => simp [walkAll]
  | cons d ds =>
    simp only [walkAll, List.append_subset, List.mem_append] at hw ⊢
    rintro r (hr | hr)
    · exact encloses_walk d hw.1 ho hp r hr
    · exact encloses_walkAll ds hw.2 ho hp r hr

end

theorem mem_of_encloses {rs : List Record} {outer r : Record} (h : Encloses rs outer r) : outer ∈ rs := by
  cases h using Relation.TransGen.head_induction_on with
  | single h => exact h.1
  | head h => exact h.1

/-! ### Items -/

theorem opensBody_of_admits {outer inner : Head} (h : outer.admits inner) : outer.opensBody := by
  cases outer with
  | module name raw inline =>
    cases inline with
    | true => rfl
    | false => cases h
  | _ => first | rfl | cases h

/-- What a declaration in a body adds, the declaration around it adds. -/
theorem facts_subset_of_mem_body {scope : String} {d e : Declaration} (hd : e ∈ d.body)
    (ha : d.head.admits e.head) : facts (collected (d.head.innerScope scope) e) ⊆ facts (collected scope d) := by
  intro f hf
  obtain ⟨head, extent, attributes, header, body⟩ := d
  obtain ⟨x, hx, hf⟩ := List.mem_flatMap.mp hf
  refine List.mem_flatMap.mpr ⟨x, ?_, hf⟩
  simp only [nested, opensBody_of_admits ha, if_true, List.mem_cons, List.mem_append]
  exact .inr (.inr (mem_nestedAll.mpr ⟨e, hd, hx⟩))

theorem facts_head_subset (scope : String) (d : Declaration) :
    d.head.facts scope ⊆ facts (collected scope d) := by
  obtain ⟨head, extent, attributes, header, body⟩ := d
  simp only [nested, facts_cons]
  exact List.subset_append_left _ _

/-- The symbol of an item is named in the scope around it, by a fact that its declaration adds by itself. -/
theorem mem_facts_of_symbol? {s : Surroundings} {d : Declaration} {symbol : Symbol} (h : symbol? t s d = some symbol)
    (hi : symbol.IsItem) :
    symbol.nameSpace = s.scope ∧ .item s.scope symbol.name ∈ d.head.facts s.scope ∧
      (d.head.WellNamed → IsItemName symbol.name) := by
  obtain ⟨hk, hn⟩ := hi
  obtain ⟨head, extent, attributes, header, body⟩ := d
  cases head with
  | module name raw inline =>
    cases h
    refine ⟨rfl, ?_, id⟩
    cases inline <;> simp [Head.facts]
  | const name =>
    cases h
    refine ⟨rfl, ?_, id⟩
    simp [Head.facts, hn rfl]
  | itemMacro name? =>
    cases name? with
    | none => cases h
    | some name =>
      cases h
      exact ⟨rfl, List.mem_singleton_self _, fun named => named name rfl⟩
  | struct | enum | union | trait | traitAlias | fn | static | typeAlias | foreignFn | foreignStatic
  | foreignType =>
    cases h
    exact ⟨rfl, List.mem_cons_self, id⟩
  | method | assocConst | assocType | field | variant =>
    cases h
    cases hk
  | _ => cases h

/-- The symbol of an item is named in the scope around it, by a fact of its declaration. -/
theorem item_of_symbol? {s : Surroundings} {d : Declaration} {symbol : Symbol} (hd : d.WellFormed)
    (h : symbol? t s d = some symbol) (hi : symbol.IsItem) :
    symbol.nameSpace = s.scope ∧ .item s.scope symbol.name ∈ facts (collected s.scope d) ∧ IsItemName symbol.name := by
  obtain ⟨hs, hf, hn⟩ := mem_facts_of_symbol? h hi
  refine ⟨hs, facts_head_subset s.scope d hf, hn ?_⟩
  cases hd with
  | mk named => exact named

/-- Every item that a walk records is declared in the scope it is named in. -/
theorem item_of_walk {d : Declaration} (hd : d.WellFormed) {s : Surroundings} {index : Nat} {r : Record}
    (hr : r ∈ walk t tree s index d) {symbol : Symbol} (hs : r.symbol? = some symbol) (hi : symbol.IsItem) :
    .item symbol.nameSpace symbol.name ∈ facts (collected s.scope d) ∧ IsItemName symbol.name := by
  induction hd generalizing s index with
  | @mk head extent attributes header body named header_items header_formed body_admitted body_formed _ ih =>
    rw [walk_eq, List.mem_cons] at hr
    rcases hr with rfl | hr
    · have hf : Declaration.WellFormed ⟨head, extent, attributes, header, body⟩ :=
        .mk named header_items header_formed body_admitted body_formed
      obtain ⟨hn, hm, hp⟩ := item_of_symbol? hf hs hi
      rw [hn]
      exact ⟨hm, hp⟩
    · obtain ⟨e, he, k, hk, -⟩ := exists_walk_of_mem_walkAll hr
      obtain ⟨hm, hp⟩ := ih e he hk
      rw [Surroundings.inside_scope] at hm
      exact ⟨facts_subset_of_mem_body he (body_admitted e he) hm, hp⟩

/-! ### Canonical paths of items -/

theorem located_concat {names : List String} {name : String} (hl : t.Located names) (hn : IsItemName name)
    (hd : t.Declares (scopePath names) name) : t.Located (names ++ [name]) := by
  refine .step hl hd hn.identifier ?_
  rintro rfl
  exact hn.not_place (by decide)

/-- Only the body of a method is a scope that nothing declares. -/
theorem located_innerScope {head : Head} (hm : head.kind ≠ .method) (hn : head.WellNamed) {names : List String}
    (hl : t.Located names)
    (hd : ∀ scope name, .item scope name ∈ head.facts (scopePath names) → t.Declares scope name) :
    ∃ inner, t.Located inner ∧ scopePath inner = head.innerScope (scopePath names) := by
  cases head with
  | module name raw inline =>
    refine ⟨names ++ [name], located_concat hl hn (hd _ _ ?_), scopePath_concat names name⟩
    cases inline <;> simp [Head.facts]
  | fn name => exact ⟨names ++ [name], located_concat hl hn (hd _ _ List.mem_cons_self), scopePath_concat names name⟩
  | method => exact absurd rfl hm
  | _ => exact ⟨names, hl, rfl⟩

/-- Below a scope that is where its path says, so is every item outside methods. -/
theorem canonicalize_of_walk {u : ScopeTable} {rs : List Record} {d : Declaration} (hd : d.WellFormed)
    {s : Surroundings} {index : Nat} (hw : walk t tree s index d ⊆ rs)
    (hf : ∀ scope name, .item scope name ∈ facts (collected s.scope d) → u.Declares scope name) {names : List String}
    (hl : u.Located names) (hp : s.scope = scopePath names) {r : Record} (hr : r ∈ walk t tree s index d)
    (hm : ∀ outer, Encloses rs outer r → outer.node.kind ≠ .method) {symbol : Symbol}
    (hs : r.symbol? = some symbol) (hi : symbol.IsItem) :
    u.canonicalize symbol.qualifiedName = symbol.qualifiedName := by
  induction hd generalizing s index names with
  | @mk head extent attributes header body named header_items header_formed body_admitted body_formed _ ih =>
    rw [walk_eq] at hw hr
    rw [List.cons_subset] at hw
    rw [List.mem_cons] at hr
    have hfh (scope name : String) (h : .item scope name ∈ head.facts s.scope) : u.Declares scope name :=
      hf scope name (facts_head_subset s.scope _ h)
    rcases hr with rfl | hr
    · have hd : Declaration.WellFormed ⟨head, extent, attributes, header, body⟩ :=
        .mk named header_items header_formed body_admitted body_formed
      obtain ⟨hn, hi, hp'⟩ := item_of_symbol? hd hs hi
      have hq : symbol.qualifiedName = scopePath (names ++ [symbol.name]) := by
        rw [Symbol.qualifiedName, hn, hp, scopePath_concat]
      rw [hq]
      exact (located_concat hl hp' (hp ▸ hf _ _ hi)).canonicalize
    · have he := encloses_walkAll body hw.2 hw.1 (Surroundings.inside_parent t s index head).symm r hr
      rw [hp] at hfh
      obtain ⟨inner, hl', hp'⟩ := located_innerScope (hm _ he) named hl hfh
      obtain ⟨e, he, k, hk, hsub⟩ := exists_walk_of_mem_walkAll hr
      refine ih e he (fun x hx => hw.2 (hsub hx)) (fun scope name h => hf scope name ?_) hl' ?_ hk
      · rw [Surroundings.inside_scope] at h
        exact facts_subset_of_mem_body he (body_admitted e he) h
      · rw [Surroundings.inside_scope, hp', hp]

/-! ### Parsed trees -/

namespace ParsedTree

/-- A record with a symbol stands in the walk of an item of its file. -/
theorem exists_walk_of_mem_allRecords {trees : List SourceTree} {index : Nat} {r : Record} {symbol : Symbol}
    (h : r ∈ allRecords t index (trees.map ofTree)) (hs : r.symbol? = some symbol) :
    ∃ tree ∈ trees, ∃ file, SourceFile.ofText? tree.text = some file ∧ ∃ d ∈ file.items, ∃ parent k,
      r ∈ walk t tree ⟨tree.module, none, parent⟩ k d ∧
        walk t tree ⟨tree.module, none, parent⟩ k d ⊆ allRecords t index (trees.map ofTree) := by
  obtain ⟨p, hp, k, hr, hsub⟩ := exists_records_of_mem_allRecords h
  obtain ⟨tree, ht, rfl⟩ := List.mem_map.mp hp
  unfold records at hr hsub
  rw [List.mem_cons] at hr
  rcases hr with rfl | hr
  · cases hs
  · cases hf : SourceFile.ofText? tree.text with
    | none => simp [ofTree, hf] at hr
    | some file =>
      simp only [ofTree, hf] at hr hsub
      obtain ⟨d, hd, k, hr, hw⟩ := exists_walk_of_mem_walkAll hr
      exact ⟨tree, ht, file, hf, d, hd, _, k, hr, fun x hx => hsub (List.mem_cons_of_mem _ (hw hx))⟩

end ParsedTree

open ParsedTree in
/-- The two walks agree on where every item lives: in the scope it is named in, its name resolves to
its qualified name. In a tree at a module path, qualified names outside methods are canonical. -/
theorem item_resolves_to_qualifiedName (trees : List SourceTree) {r : Record} {symbol : Symbol}
    (hr : r ∈ allRecords (table (trees.map ofTree)) 0 (trees.map ofTree)) (hs : r.symbol? = some symbol)
    (hi : symbol.IsItem) :
    (table (trees.map ofTree)).resolve symbol.nameSpace ⟨false, [symbol.name]⟩ = some symbol.qualifiedName ∧
    ∀ names, (∀ n ∈ names, ScopeTable.IsSegment n) → r.node.tree.module = scopePath names →
      (∀ outer, Encloses (allRecords (table (trees.map ofTree)) 0 (trees.map ofTree)) outer r →
        outer.node.kind ≠ .method) →
      (table (trees.map ofTree)).canonicalize symbol.qualifiedName = symbol.qualifiedName := by
  obtain ⟨tree, ht, file, hf, d, hd, parent, k, hw, hsub⟩ := exists_walk_of_mem_allRecords hr hs
  have hwf := (SourceFile.ofText?_items hf d hd).formed
  have hdecl (scope name : String) (h : .item scope name ∈ ScopeTable.fileFacts tree.module (some file)) :
      (table (trees.map ofTree)).Declares scope name :=
    declares_table (List.mem_map_of_mem ht) (by rwa [ofTree, hf])
  have hfacts (scope name : String) (h : .item scope name ∈ facts (collected tree.module d)) :
      (table (trees.map ofTree)).Declares scope name :=
    hdecl scope name (List.mem_append_right _ (facts_subset_of_mem hd h))
  constructor
  · obtain ⟨hm, hn⟩ := item_of_walk hwf hw hs hi
    refine (hfacts _ _ hm).resolve fun hc => hn.not_place ?_
    revert hc
    simp only [List.mem_cons]
    tauto
  · intro names hn hmod hmethod
    rw [tree_of_mem_walk hw] at hmod
    rw [hmod] at hdecl
    exact canonicalize_of_walk hwf hsub hfacts (ScopeTable.located_of_fileFacts hn hdecl) hmod hw hmethod hs hi

open ParsedTree in
/-- A struct in the body of a function in a module. -/
theorem item_resolves_to_qualifiedName_in_body :
    (table ([⟨"src/lib.rs", "crate", "mod m \x7b fn f() \x7b struct S; \x7d \x7d", .e2021, _, rfl⟩].map ofTree)).resolve
      "crate::m::f" ⟨false, ["S"]⟩ = some "crate::m::f::S" ∧
    (table ([⟨"src/lib.rs", "crate", "mod m \x7b fn f() \x7b struct S; \x7d \x7d", .e2021, _, rfl⟩].map
      ofTree)).canonicalize "crate::m::f::S" = "crate::m::f::S" := by
  let trees : List SourceTree := [⟨"src/lib.rs", "crate", "mod m \x7b fn f() \x7b struct S; \x7d \x7d", .e2021, _, rfl⟩]
  let rs := allRecords (table (trees.map ofTree)) 0 (trees.map ofTree)
  have h3 : rs[3]?.map (fun r => (r.node.tree.module, r.symbol?)) =
      some ("crate", some ⟨.struct, "S", "crate::m::f", [], []⟩) := by decide +kernel
  have hm : ∀ r ∈ rs, r.node.kind ≠ .method := by decide +kernel
  obtain ⟨r, hr, hp⟩ := Option.map_eq_some_iff.mp h3
  have h := item_resolves_to_qualifiedName trees (List.mem_of_getElem? hr) (Prod.mk.inj hp).2
    ⟨rfl, by decide⟩
  exact ⟨h.1, h.2 [] (by simp) (Prod.mk.inj hp).1 fun outer ho => hm outer (mem_of_encloses ho)⟩

end Index
end GeneratorHost
