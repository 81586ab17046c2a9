import GeneratorHost.Proofs.Index.Apart
import GeneratorHost.Proofs.Index.Preorder
import GeneratorHost.Proofs.Scope.Grounded

/-! Which declarations an index holds: those in bodies, but none in a header. -/
namespace GeneratorHost

namespace Declaration

/-- What a traversal reaches that opens everything. -/
abbrev reachedAll : String → List Declaration → List (String × Declaration) :=
  nestedAll (fun _ => true) (fun _ => true)

/-- What stands in the header of a declaration, if it is opened. -/
def inHeader (header body : Head → Bool) (x : String × Declaration) : List (String × Declaration) :=
  if header x.2.head then nestedAll header body (x.2.head.innerScope x.1) x.2.header else []

/-- What stands in the headers of declarations and of those in their bodies. -/
def inHeaders (header body : Head → Bool) (scope : String) (ds : List Declaration) : List (String × Declaration) :=
  (nestedAll (fun _ => false) body scope ds).flatMap (inHeader header body)

mutual

theorem nested_perm (header body : Head → Bool) (scope : String) (d : Declaration) :
    (d.nested header body scope).Perm (d.nested (fun _ => false) body scope ++
      (d.nested (fun _ => false) body scope).flatMap (inHeader header body)) := by
  obtain ⟨head, extent, attributes, inHead, inBody⟩ := d
  simp only [nested, Bool.false_eq_true, if_false, List.nil_append, List.flatMap_cons, List.cons_append]
  refine .cons _ ?_
  have hb : (if body head then nestedAll header body (head.innerScope scope) inBody else []).Perm
      ((if body head then nestedAll (fun _ => false) body (head.innerScope scope) inBody else []) ++
        (if body head then nestedAll (fun _ => false) body (head.innerScope scope) inBody else []).flatMap
          (inHeader header body)) := by
    split
    · exact nestedAll_perm header body _ inBody
    · exact .refl _
  -- what stands in the header comes before the body, and here behind what the body holds
  exact (hb.append_left _).trans (List.perm_append_comm_assoc _ _ _)

/-- What is nested in declarations is what bodies hold, and what stands in headers. -/
theorem nestedAll_perm (header body : Head → Bool) (scope : String) (ds : List Declaration) :
    (nestedAll header body scope ds).Perm
      (nestedAll (fun _ => false) body scope ds ++ inHeaders header body scope ds) := by
  cases ds with
  | nil => exact .refl _
  | cons d ds =>
    have hd := nested_perm header body scope d
    have hds := nestedAll_perm header body scope ds
    simp only [inHeaders, nestedAll, List.flatMap_append] at hds ⊢
    refine (hd.append hds).trans ?_
    rw [List.append_assoc, List.append_assoc]
    exact .append_left _ (List.perm_append_comm_assoc _ _ _)

end
end Declaration

namespace Index
open Declaration ParsedTree

/-- A record is made from a declaration that stands in a scope. -/
def IsRecordOf (t : ScopeTable) (tree : SourceTree) (r : Record) (x : String × Declaration) : Prop :=
  ∃ s index, s.scope = x.1 ∧ r = record t tree s index x.2

/-- Every item among declarations is recorded once: there are as many records of its kind and extent as there are
declarations. -/
def ItemsRecorded (rs : List Record) (found : List (String × Declaration)) : Prop :=
  ∀ x ∈ found, x.2.head.isItem →
    rs.countP (fun r => r.node.kind = x.2.head.kind ∧ r.node.extent = x.2.extent) =
      found.countP fun y => y.2.head.kind = x.2.head.kind ∧ y.2.extent = x.2.extent

/-- Every name that declarations add to a scope is that of a record in this scope. -/
def NamesRecorded (rs : List Record) (found : List (String × Declaration)) : Prop :=
  ∀ scope name, .item scope name ∈ facts found → ∃ r ∈ rs, ∃ symbol, r.symbol? = some symbol ∧ symbol.IsItem ∧
    symbol.nameSpace = scope ∧ symbol.name = name

/-! ### Records of declarations -/

section
variable {t : ScopeTable} {tree : SourceTree}

mutual

theorem forall₂_walk {s : Surroundings} {index : Nat} (d : Declaration) :
    List.Forall₂ (IsRecordOf t tree) (walk t tree s index d)
      (d.nested (fun _ => false) (fun _ => true) s.scope) := by
  obtain ⟨head, extent, attributes, header, body⟩ := d
  rw [walk_eq, Declaration.nested]
  refine .cons ⟨s, index, rfl, rfl⟩ ?_
  rw [← Surroundings.inside_scope t s index head]
  exact forall₂_walkAll body

/-- A walk makes one record from each declaration in the bodies, in reading order. -/
theorem forall₂_walkAll {s : Surroundings} {index : Nat} (ds : List Declaration) :
    List.Forall₂ (IsRecordOf t tree) (walkAll t tree s index ds) (recordedAll s.scope ds) := by
  cases ds with
  | nil =>
    simp only [walkAll, nestedAll]
    exact .nil
  | cons d ds =>
    simp only [walkAll, nestedAll]
    exact List.rel_append (forall₂_walk d) (forall₂_walkAll ds)

end

variable {rs : List Record} {found : List (String × Declaration)}

theorem countP_eq_of_forall₂ (h : List.Forall₂ (IsRecordOf t tree) rs found) (kind : Kind) (extent : Extent) :
    rs.countP (fun r => r.node.kind = kind ∧ r.node.extent = extent) =
      found.countP fun x => x.2.head.kind = kind ∧ x.2.extent = extent := by
  induction h with
  | nil => rfl
  | cons hr _ ih =>
    obtain ⟨s, index, -, rfl⟩ := hr
    rw [List.countP_cons, List.countP_cons, ih]
    rfl

/-- A declaration adds the name of its symbol, if it is an item, and no other. -/
theorem item_mem_facts_iff {s : Surroundings} {d : Declaration} {scope name : String} :
    .item scope name ∈ d.head.facts s.scope ↔
      ∃ symbol, symbol? t s d = some symbol ∧ symbol.IsItem ∧ symbol.nameSpace = scope ∧ symbol.name = name := by
  obtain ⟨head, extent, attributes, header, body⟩ := d
  constructor
  · intro h
    cases head with
    | use isGlobal tree => rcases mem_useFacts h with ⟨shown, target, hf⟩ | ⟨target, hf⟩ <;> cases hf
    | externCrate crate rename? =>
      obtain ⟨shown, target, hf⟩ := mem_crateFacts h
      cases hf
    | const shown =>
      by_cases hn : shown = "_"
      · simp [Head.facts, hn] at h
      · simp only [Head.facts, hn, if_false, List.mem_singleton, ScopeFact.item.injEq] at h
        exact ⟨_, rfl, ⟨rfl, fun _ => hn⟩, h.1.symm, h.2.symm⟩
    | itemMacro name? =>
      cases name? with
      | none => simp [Head.facts] at h
      | some shown =>
        simp only [Head.facts, List.mem_singleton, ScopeFact.item.injEq] at h
        exact ⟨_, rfl, ⟨rfl, nofun⟩, h.1.symm, h.2.symm⟩
    | module shown raw inline =>
      have h : .item scope name = ScopeFact.item s.scope shown := by
        cases inline <;> simpa [Head.facts] using h
      cases h
      exact ⟨_, rfl, ⟨rfl, nofun⟩, rfl, rfl⟩
    | struct shown | enum shown | union shown | trait shown | traitAlias shown | fn shown | static shown
    | typeAlias shown | foreignFn shown | foreignStatic shown | foreignType shown =>
      have h : .item scope name = ScopeFact.item s.scope shown := by
        simpa [Head.facts, Head.traitFact?] using h
      cases h
      exact ⟨_, rfl, ⟨rfl, nofun⟩, rfl, rfl⟩
    | _ => simp [Head.facts] at h
  · rintro ⟨symbol, hs, hi, rfl, rfl⟩
    obtain ⟨hscope, hf, -⟩ := mem_facts_of_symbol? hs hi
    rw [hscope]
    exact hf

theorem item_mem_facts_of_forall₂ (h : List.Forall₂ (IsRecordOf t tree) rs found) {scope name : String} :
    .item scope name ∈ facts found ↔ ∃ r ∈ rs, ∃ symbol, r.symbol? = some symbol ∧ symbol.IsItem ∧
      symbol.nameSpace = scope ∧ symbol.name = name := by
  induction h with
  | nil => simp
  | @cons r x rs found hr _ ih =>
    obtain ⟨outer, d⟩ := x
    obtain ⟨s, index, rfl, rfl⟩ := hr
    rw [facts_cons, List.mem_append, ih, item_mem_facts_iff, List.exists_mem_cons_iff]
    rfl

end

/-! ### Files -/

theorem nestedAll_congr {header header' body body' : Head → Bool} {scope : String} {ds : List Declaration}
    (h : ∀ d ∈ ds, d.nested header body scope = d.nested header' body' scope) :
    nestedAll header body scope ds = nestedAll header' body' scope ds := by
  induction ds with
  | nil => rfl
  | cons d ds ih =>
    rw [List.forall_mem_cons] at h
    rw [nestedAll, nestedAll, h.1, ih h.2]

/-- The collector goes through every body that holds anything. -/
theorem nested_opensBody {d : Declaration} (hd : d.WellFormed) (scope : String) :
    d.nested (fun _ => false) Head.opensBody scope = d.nested (fun _ => false) (fun _ => true) scope := by
  induction hd generalizing scope with
  | @mk head extent attributes header body named header_items header_formed body_admitted body_formed _ ih =>
    simp only [Declaration.nested, Bool.false_eq_true, if_false, if_true]
    rw [nestedAll_congr fun e he => ih e he (head.innerScope scope)]
    cases body with
    | nil => simp [nestedAll]
    | cons e es => rw [opensBody_of_admits (body_admitted e List.mem_cons_self), if_pos rfl]

theorem nestedAll_opensBody {ds : List Declaration} (hds : ∀ d ∈ ds, d.WellFormed) (scope : String) :
    nestedAll (fun _ => false) Head.opensBody scope ds = recordedAll scope ds :=
  nestedAll_congr fun d hd => nested_opensBody (hds d hd) scope

/-- What stands in headers are items, and what is nested in them. -/
theorem exists_item_of_inHeaders_ne_nil {scope : String} {ds : List Declaration} (hds : ∀ d ∈ ds, d.WellFormed)
    (h : inHeaders (fun _ => true) (fun _ => true) scope ds ≠ []) :
    ∃ x ∈ inHeaders (fun _ => true) (fun _ => true) scope ds, x.2.head.isItem := by
  obtain ⟨y, hy⟩ := List.exists_mem_of_ne_nil _ h
  obtain ⟨⟨outer, c⟩, hc, hy⟩ := List.mem_flatMap.mp hy
  obtain ⟨d, hd, hcd⟩ := mem_nestedAll.mp hc
  obtain ⟨e, he, -⟩ := mem_nestedAll.mp hy
  have hin : (c.head.innerScope outer, e) ∈ inHeader (fun _ => true) (fun _ => true) (outer, c) :=
    mem_nestedAll.mpr ⟨e, he, mem_nested_self _ _ _ e⟩
  have hformed : c.WellFormed := (hds d hd).of_mem_nested hcd
  refine ⟨_, List.mem_flatMap.mpr ⟨_, hc, hin⟩, ?_⟩
  cases hformed with
  | mk named header_items => exact header_items e he

section
variable {t : ScopeTable} {tree : SourceTree} {rs : List Record} {scope : String} {ds : List Declaration}

/-- All items are recorded exactly if none stands in a header. -/
theorem itemsRecorded_iff (h : List.Forall₂ (IsRecordOf t tree) rs (recordedAll scope ds))
    (hds : ∀ d ∈ ds, d.WellFormed) :
    ItemsRecorded rs (reachedAll scope ds) ↔
      inHeaders (fun _ => true) (fun _ => true) scope ds = [] := by
  have hperm := nestedAll_perm (fun _ => true) (fun _ => true) scope ds
  constructor
  · intro hr
    by_contra hne
    obtain ⟨x, hx, hi⟩ := exists_item_of_inHeaders_ne_nil hds hne
    have hc := hr x (hperm.mem_iff.mpr (List.mem_append_right _ hx)) hi
    rw [countP_eq_of_forall₂ h, hperm.countP_eq, List.countP_append, Nat.left_eq_add, List.countP_eq_zero] at hc
    exact hc x hx (by simp)
  · intro hnil x _ _
    rw [hnil, List.append_nil] at hperm
    rw [countP_eq_of_forall₂ h, hperm.countP_eq]

/-- All names are recorded exactly if those that are declared in headers are declared elsewhere in their scopes. -/
theorem namesRecorded_iff (h : List.Forall₂ (IsRecordOf t tree) rs (recordedAll scope ds))
    (hds : ∀ d ∈ ds, d.WellFormed) :
    NamesRecorded rs (collectedAll scope ds) ↔ ∀ inner name,
      .item inner name ∈ facts (inHeaders Head.opensHeader Head.opensBody scope ds) →
        .item inner name ∈ facts (recordedAll scope ds) := by
  have hperm := nestedAll_perm Head.opensHeader Head.opensBody scope ds
  rw [nestedAll_opensBody hds] at hperm
  have hmem (f : ScopeFact) : f ∈ facts (collectedAll scope ds) ↔ f ∈ facts (recordedAll scope ds) ∨
      f ∈ facts (inHeaders Head.opensHeader Head.opensBody scope ds) := by
    rw [← List.mem_append, ← facts_append]
    exact (hperm.flatMap_right _).mem_iff
  refine forall₂_congr fun inner name => ?_
  rw [hmem, ← item_mem_facts_of_forall₂ h]
  tauto

/-- The record of a file is that of no declaration. -/
theorem itemsRecorded_cons {root : Record} (hk : root.node.kind = .file) {found : List (String × Declaration)} :
    ItemsRecorded (root :: rs) found ↔ ItemsRecorded rs found := by
  unfold ItemsRecorded
  simp only [List.countP_cons, hk, (kind_ne_file _).symm, false_and, decide_false, Bool.false_eq_true, if_false,
    Nat.add_zero]

theorem namesRecorded_cons {root : Record} (hs : root.symbol? = none) {found : List (String × Declaration)} :
    NamesRecorded (root :: rs) found ↔ NamesRecorded rs found := by
  simp [NamesRecorded, hs]

end

/-- The records of a file stand one for one, in order, for the declarations in its bodies; all declarations are
these and those in headers. So every item has one record exactly if none stands in a header, and every name
that the collector adds has one exactly if no header adds a name that nothing else adds. -/
theorem records_cover (t : ScopeTable) (index : Nat) {tree : SourceTree} {file : SourceFile}
    (hf : SourceFile.ofText? tree.text = some file) :
    let rs := (ofTree tree).records t index
    List.Forall₂ (IsRecordOf t tree) rs.tail (recordedAll tree.module file.items) ∧
      (reachedAll tree.module file.items).Perm (recordedAll tree.module file.items ++
        inHeaders (fun _ => true) (fun _ => true) tree.module file.items) ∧
      (ItemsRecorded rs (reachedAll tree.module file.items) ↔
        inHeaders (fun _ => true) (fun _ => true) tree.module file.items = []) ∧
      (NamesRecorded rs (collectedAll tree.module file.items) ↔ ∀ scope name,
        .item scope name ∈ facts (inHeaders Head.opensHeader Head.opensBody tree.module file.items) →
          .item scope name ∈ facts (recordedAll tree.module file.items)) := by
  have hds : ∀ d ∈ file.items, d.WellFormed := fun d hd => (SourceFile.ofText?_items hf d hd).formed
  obtain ⟨root, hrs, hk, hs⟩ : ∃ root, (ofTree tree).records t index =
      root :: walkAll t tree ⟨tree.module, none, index⟩ (index + 1) file.items ∧ root.node.kind = .file ∧
        root.symbol? = none :=
    ⟨_, by rw [records, ofTree, hf], rfl, rfl⟩
  have hone : List.Forall₂ (IsRecordOf t tree) (walkAll t tree ⟨tree.module, none, index⟩ (index + 1) file.items)
      (recordedAll tree.module file.items) :=
    forall₂_walkAll file.items
  intro rs
  rw [show rs = _ from hrs, List.tail_cons, itemsRecorded_cons hk, namesRecorded_cons hs]
  exact ⟨hone, nestedAll_perm _ _ _ _, itemsRecorded_iff hone hds, namesRecorded_iff hone hds⟩

/-- Items in a body of a function in a module. -/
theorem records_cover_bodies :
    let tree : SourceTree := ⟨"src/lib.rs", "crate", "mod m \x7b fn f() \x7b struct S; \x7d \x7d", .e2021, _, rfl⟩
    ∃ file, SourceFile.ofText? tree.text = some file ∧
      ItemsRecorded ((ofTree tree).records {} 0) (reachedAll "crate" file.items) ∧
      NamesRecorded ((ofTree tree).records {} 0) (collectedAll "crate" file.items) := by
  intro tree
  have hf : ((SourceFile.ofText? tree.text).map fun file =>
      ((inHeaders (fun _ => true) (fun _ => true) "crate" file.items).length,
        (inHeaders Head.opensHeader Head.opensBody "crate" file.items).length)) = some (0, 0) := by decide +kernel
  obtain ⟨file, hf, hnil⟩ := Option.map_eq_some_iff.mp hf
  obtain ⟨-, -, hitems, hnames⟩ := records_cover {} 0 hf
  simp only [Prod.mk.injEq, List.length_eq_zero_iff] at hnil
  refine ⟨file, hf, hitems.mpr hnil.1, hnames.mpr fun scope name h => ?_⟩
  rw [show inHeaders Head.opensHeader Head.opensBody tree.module file.items = [] from hnil.2] at h
  cases h

/-- An item in the type of a constant has no record, although the collector declares its name. -/
theorem header_not_recorded :
    (¬ ∀ (tree : SourceTree) (file : SourceFile) (t : ScopeTable) (index : Nat),
      SourceFile.ofText? tree.text = some file → ItemsRecorded ((ofTree tree).records t index)
        (reachedAll tree.module file.items)) ∧
    ¬ ∀ (tree : SourceTree) (file : SourceFile) (t : ScopeTable) (index : Nat),
      SourceFile.ofText? tree.text = some file → NamesRecorded ((ofTree tree).records t index)
        (collectedAll tree.module file.items) := by
  let tree : SourceTree :=
    ⟨"src/lib.rs", "crate", "const C: [u8; \x7b struct Inner; 0 \x7d] = [];", .e2021, _, rfl⟩
  let names (fs : List ScopeFact) := fs.filterMap (ScopeFact.item? "crate")
  have hf : ((SourceFile.ofText? tree.text).map fun file =>
      ((reachedAll "crate" file.items).map fun x => (x.2.head.kind, x.2.head.isItem),
        names (facts (collectedAll "crate" file.items)))) =
      some ([(.const, true), (.struct, true)], ["C", "Inner"]) := by decide +kernel
  have hr : ∀ r ∈ (ofTree tree).records {} 0, r.node.kind ≠ .struct ∧ ∀ symbol ∈ r.symbol?, symbol.name ≠ "Inner" := by
    decide +kernel
  obtain ⟨file, hf, hfound⟩ := Option.map_eq_some_iff.mp hf
  obtain ⟨hfound, hnames⟩ := Prod.mk.inj hfound
  constructor
  · intro h
    have hx : (Kind.struct, true) ∈ [(Kind.const, true), (.struct, true)] := by decide
    rw [← hfound] at hx
    obtain ⟨x, hx, hkind⟩ := List.mem_map.mp hx
    obtain ⟨hkind, hi⟩ := Prod.mk.inj hkind
    have hc := h tree file {} 0 hf x hx hi
    rw [List.countP_eq_zero.mpr fun r hm => by simp [hkind, (hr r hm).1], eq_comm, List.countP_eq_zero] at hc
    exact hc x hx (by simp)
  · intro h
    have hn : "Inner" ∈ ["C", "Inner"] := by decide
    rw [← hnames] at hn
    obtain ⟨f, hf', hi⟩ := List.mem_filterMap.mp hn
    have hi : f = .item "crate" "Inner" := by
      cases f <;> grind [ScopeFact.item?]
    obtain ⟨r, hm, symbol, hs, -, -, hname⟩ := h tree file {} 0 hf "crate" "Inner" (hi ▸ hf')
    exact (hr r hm).2 symbol hs hname

end Index
end GeneratorHost
