import GeneratorHost.Proofs.Index.Candidates
import GeneratorHost.Proofs.Index.Preorder

/-! The namespaces of an index: a member is named in the type, trait or implementation around it, an item in the
nearest module or body. -/
namespace GeneratorHost

namespace Kind

/-- Kinds whose bodies are scopes of their own. -/
def opensScope : Kind → Bool
  | .module | .fn | .method => true
  | _ => false

/-- Kinds of the named parts of types, traits and implementations. -/
def isMember : Kind → Bool
  | .method | .assocConst | .assocType | .field | .variant => true
  | _ => false

end Kind

namespace Index
open Declaration ParsedTree

/-- A record stands right below another. -/
def IsParent (rs : List Record) (p r : Record) : Prop := p ∈ rs ∧ r.node.parent? = some p.node.index

/-- The nearest record around another that opens a scope. -/
structure IsHome (rs : List Record) (h r : Record) : Prop where
  encloses : Encloses rs h r
  opens : h.node.kind.opensScope
  nearest : ∀ x, Encloses rs x r → x.node.kind.opensScope → x = h ∨ Encloses rs x h

/-- A record with none around it that opens a scope. -/
def IsOutermost (rs : List Record) (r : Record) : Prop := ∀ x, Encloses rs x r → x.node.kind.opensScope = false

/-- The scope that a record stands in. That of a method's body is named from where its implementation or trait
stands. -/
inductive StandsIn (rs : List Record) : Record → String → Prop
  | root {r : Record} (top : IsOutermost rs r) : StandsIn rs r r.node.tree.module
  | inside {h r : Record} {symbol : Symbol} (home : IsHome rs h r)
      (kind : h.node.kind = .module ∨ h.node.kind = .fn) (named : h.symbol? = some symbol) :
      StandsIn rs r symbol.qualifiedName
  | method {p h r : Record} {symbol : Symbol} {scope : String} (home : IsHome rs h r)
      (kind : h.node.kind = .method) (named : h.symbol? = some symbol) (parent : IsParent rs p h)
      (owner : p.node.kind = .impl ∨ p.node.kind = .trait) (outer : StandsIn rs p scope) :
      StandsIn rs r (qualify scope symbol.name)

/-- What the members in a record are named in: the type, variant or trait that it is, or the type that the
implementation is for. -/
inductive Owns (ps : List ParsedTree) (rs : List Record) (p : Record) : String → Prop
  | named {symbol : Symbol} (kind : p.node.kind ∈ [.struct, .enum, .union, .variant, .trait])
      (named : p.symbol? = some symbol) : Owns ps rs p symbol.qualifiedName
  | impl {s : Surroundings} {d : Declaration} {parameters : List String} {trait? : Option TraitRef}
      {subject : TypeRef} (made : RecordedFrom ps p s d) (head : d.head = .impl parameters trait? subject)
      (stands : StandsIn rs p s.scope) : Owns ps rs p ((table ps).resolveType s.scope subject)

/-- How the symbol of a record is named. -/
structure NamedInPlace (ps : List ParsedTree) (rs : List Record) (r : Record) (symbol : Symbol) : Prop where
  kind : symbol.kind = r.node.kind
  qualified : symbol.qualifiedName = symbol.nameSpace ++ "::" ++ symbol.name
  member : symbol.kind.isMember → ∃ p, IsParent rs p r ∧ Owns ps rs p symbol.nameSpace
  item : symbol.kind.isMember = false → ∀ scope, StandsIn rs r scope ↔ scope = symbol.nameSpace

/-! ### Homes -/

section
variable {rs : List Record} {h o r : Record}

theorem Numbered.encloses_iff (hn : Numbered 0 rs) (hp : IsParent rs o r) :
    ∀ x, Encloses rs x r ↔ x = o ∨ Encloses rs x o := by
  refine fun x => ⟨fun he => ?_, ?_⟩
  · have hout {m : Record} (hm : IsParent rs m r) : m = o :=
      hn.eq_of_index_eq hm.1 hp.1 (Option.some.inj (hm.2.symm.trans hp.2))
    cases he with
    | single hs => exact .inl (hout hs)
    | tail he hs => exact .inr (hout hs ▸ he)
  · rintro (rfl | he)
    · exact .single hp
    · exact he.tail hp

namespace IsHome

theorem of_parent (hn : Numbered 0 rs) (hp : IsParent rs o r) (ho : o.node.kind.opensScope) : IsHome rs o r where
  encloses := .single hp
  opens := ho
  nearest := fun x he _ => (hn.encloses_iff hp x).mp he

theorem through (hn : Numbered 0 rs) (hp : IsParent rs o r) (ho : o.node.kind.opensScope = false)
    (hh : IsHome rs h o) : IsHome rs h r where
  encloses := hh.encloses.tail hp
  opens := hh.opens
  nearest := by
    intro x he hx
    obtain rfl | he := (hn.encloses_iff hp x).mp he
    · rw [ho] at hx
      cases hx
    · exact hh.nearest x he hx

theorem unique (hg : Hangs none 0 rs) {h' : Record} (hh : IsHome rs h r) (hh' : IsHome rs h' r) : h = h' := by
  obtain he | he := hh.nearest h' hh'.encloses hh'.opens
  · exact he.symm
  obtain he' | he' := hh'.nearest h hh.encloses hh.opens
  · exact he'
  -- otherwise each stands before the other
  have hl := hg.index_lt_of_encloses (mem_of_encloses hh.encloses) he
  have hl' := hg.index_lt_of_encloses (mem_of_encloses hh'.encloses) he'
  omega

end IsHome

namespace IsOutermost

theorem through (hn : Numbered 0 rs) (hp : IsParent rs o r) (ho : o.node.kind.opensScope = false)
    (ht : IsOutermost rs o) : IsOutermost rs r := by
  intro x he
  obtain rfl | he := (hn.encloses_iff hp x).mp he
  · exact ho
  · exact ht x he

theorem not_isHome (ht : IsOutermost rs r) : ¬ IsHome rs h r := by
  intro hh
  have ho := hh.opens
  rw [ht h hh.encloses] at ho
  cases ho

end IsOutermost

namespace StandsIn

/-- Only a record that opens a scope changes the scope for what it holds. -/
theorem through (hn : Numbered 0 rs) (hp : IsParent rs o r) (ho : o.node.kind.opensScope = false)
    (ht : r.node.tree = o.node.tree) {scope : String} (hs : StandsIn rs o scope) : StandsIn rs r scope := by
  cases hs with
  | root top =>
    rw [← ht]
    exact .root (top.through hn hp ho)
  | inside home kind named => exact .inside (home.through hn hp ho) kind named
  | method home kind named parent owner outer => exact .method (home.through hn hp ho) kind named parent owner outer

theorem unique (hg : Hangs none 0 rs) {scope scope' : String} (hs : StandsIn rs r scope)
    (hs' : StandsIn rs r scope') : scope = scope' := by
  induction hs generalizing scope' with
  | root top =>
    cases hs' with
    | root => rfl
    | inside home | method home => exact absurd home top.not_isHome
  | inside home kind named =>
    cases hs' with
    | root top => exact absurd home top.not_isHome
    | inside home' kind' named' =>
      rw [home.unique hg home'] at named
      rw [Option.some.inj (named.symm.trans named')]
    | method home' kind' =>
      rw [home.unique hg home', kind'] at kind
      simp at kind
  | method home kind named parent owner outer ih =>
    cases hs' with
    | root top => exact absurd home top.not_isHome
    | inside home' kind' =>
      rw [← home.unique hg home', kind] at kind'
      simp at kind'
    | method home' kind' named' parent' owner' outer' =>
      obtain rfl := home.unique hg home'
      obtain rfl := Option.some.inj (named.symm.trans named')
      obtain rfl := hg.numbered.eq_of_index_eq parent.1 parent'.1 (Option.some.inj (parent.2.symm.trans parent'.2))
      rw [ih outer']

end StandsIn
end

/-! ### Declarations of records -/

/-- How the records of declarations come about: one for each of them in the surroundings of all, and below the record
of a declaration one for each that its body holds. -/
inductive Recorded (t : ScopeTable) (tree : SourceTree) (rs : List Record) (base : Surroundings)
    (ds : List Declaration) : Record → Surroundings → Declaration → Prop
  | top {index : Nat} {d : Declaration} (hd : d ∈ ds) (mem : record t tree base index d ∈ rs) :
      Recorded t tree rs base ds (record t tree base index d) base d
  | inside {o : Record} {s : Surroundings} {d e : Declaration} {index : Nat}
      (outer : Recorded t tree rs base ds o s d) (he : e ∈ d.body)
      (mem : record t tree (s.inside t o.node.index d.head) index e ∈ rs) :
      Recorded t tree rs base ds (record t tree (s.inside t o.node.index d.head) index e)
        (s.inside t o.node.index d.head) e

section
variable {t : ScopeTable} {tree : SourceTree} {rs : List Record} {base s : Surroundings} {ds : List Declaration}
  {r : Record} {d : Declaration}

namespace Recorded

theorem mem (h : Recorded t tree rs base ds r s d) : r ∈ rs := by cases h <;> assumption

theorem eq_record (h : Recorded t tree rs base ds r s d) : r = record t tree s r.node.index d := by
  cases h <;> rfl

theorem tree_eq (h : Recorded t tree rs base ds r s d) : r.node.tree = tree := by cases h <;> rfl

theorem kind_eq (h : Recorded t tree rs base ds r s d) : r.node.kind = d.head.kind := by cases h <;> rfl

theorem symbol?_eq (h : Recorded t tree rs base ds r s d) : r.symbol? = symbol? t s d := by cases h <;> rfl

/-- The record of what a body holds stands right below that of the declaration. -/
theorem isParent (h : Recorded t tree rs base ds r s d) (e : Declaration) (index : Nat) :
    IsParent rs r (record t tree (s.inside t r.node.index d.head) index e) :=
  ⟨h.mem, by simp [record, node]⟩

end Recorded

mutual

theorem recorded_walk {s : Surroundings} {index : Nat} (d : Declaration) (hw : walk t tree s index d ⊆ rs)
    (hd : ∀ k, record t tree s k d ∈ rs → Recorded t tree rs base ds (record t tree s k d) s d) :
    ∀ r ∈ walk t tree s index d, ∃ s' e, Recorded t tree rs base ds r s' e := by
  obtain ⟨head, extent, attributes, header, body⟩ := d
  rw [walk_eq] at hw ⊢
  rw [List.cons_subset] at hw
  have ho := hd index hw.1
  rw [List.forall_mem_cons]
  exact ⟨⟨_, _, ho⟩, recorded_walkAll body hw.2 fun e he k hk => .inside ho he hk⟩

theorem recorded_walkAll {s : Surroundings} {index : Nat} (es : List Declaration) (hw : walkAll t tree s index es ⊆ rs)
    (hd : ∀ e ∈ es, ∀ k, record t tree s k e ∈ rs → Recorded t tree rs base ds (record t tree s k e) s e) :
    ∀ r ∈ walkAll t tree s index es, ∃ s' e, Recorded t tree rs base ds r s' e := by
  cases es with
  | nil => simp [walkAll]
  | cons e es =>
    rw [List.forall_mem_cons] at hd
    simp only [walkAll, List.append_subset, List.mem_append] at hw ⊢
    rintro r (hr | hr)
    · exact recorded_walk e hw.1 hd.1 r hr
    · exact recorded_walkAll es hw.2 hd.2 r hr

end

mutual

/-- What stands in an opened body is nested where the declaration around it is. -/
theorem mem_nested_of_mem_body {header body : Head → Bool} {base scope : String} (d : Declaration)
    {e f : Declaration} (he : (scope, e) ∈ d.nested header body base) (ho : body e.head) (hf : f ∈ e.body) :
    (e.head.innerScope scope, f) ∈ d.nested header body base := by
  obtain ⟨head, extent, attributes, inHeader, inBody⟩ := d
  simp only [Declaration.nested, List.mem_cons, List.mem_append, List.mem_ite_nil_right] at he ⊢
  rcases he with he | he | he
  · cases he
    exact .inr (.inr ⟨ho, mem_nestedAll.mpr ⟨f, hf, mem_nested_self _ _ _ f⟩⟩)
  · exact .inr (.inl ⟨he.1, mem_nestedAll_of_mem_body inHeader he.2 ho hf⟩)
  · exact .inr (.inr ⟨he.1, mem_nestedAll_of_mem_body inBody he.2 ho hf⟩)

theorem mem_nestedAll_of_mem_body {header body : Head → Bool} {base scope : String} (ds : List Declaration)
    {e f : Declaration} (he : (scope, e) ∈ nestedAll header body base ds) (ho : body e.head) (hf : f ∈ e.body) :
    (e.head.innerScope scope, f) ∈ nestedAll header body base ds := by
  cases ds with
  | nil => simp [nestedAll] at he
  | cons d ds =>
    simp only [nestedAll, List.mem_append] at he ⊢
    rcases he with he | he
    · exact .inl (mem_nested_of_mem_body d he ho hf)
    · exact .inr (mem_nestedAll_of_mem_body ds he ho hf)

end

theorem Recorded.mem_recordedAll (h : Recorded t tree rs base ds r s d) :
    (s.scope, d) ∈ recordedAll base.scope ds := by
  induction h with
  | top hd => exact mem_nestedAll.mpr ⟨_, hd, mem_nested_self _ _ _ _⟩
  | inside outer he mem ih =>
    rw [Surroundings.inside_scope]
    exact mem_nestedAll_of_mem_body ds ih rfl he

end

/-! ### Places -/

theorem not_isMember_of_isItem {head : Head} (h : head.isItem) : head.kind.isMember = false := by
  cases head <;> first | rfl | cases h

theorem owner_of_admits {outer inner : Head} (h : outer.admits inner) (hm : inner.kind.isMember) :
    outer.kind ∈ [.struct, .enum, .union, .variant, .trait, .impl] ∧
      (inner.kind = .method → outer.kind = .impl ∨ outer.kind = .trait) := by
  have hi (hi : inner.isItem) : False := by simp [not_isMember_of_isItem hi] at hm
  cases outer with
  | struct | union | enum | variant =>
    refine ⟨by simp [Head.kind], fun hk => ?_⟩
    cases inner <;> first | exact Bool.noConfusion h | exact Kind.noConfusion hk
  | trait | impl => simp [Head.kind]
  | module name raw inline =>
    cases inline with
    | true => exact (hi h).elim
    | false => cases h
  | fn | method | const | static | assocConst | field => exact (hi h).elim
  | foreignMod => cases inner <;> first | exact Bool.noConfusion h | exact Bool.noConfusion hm
  | _ => cases h

theorem innerScope_eq {head : Head} (h : head.kind.opensScope = false) (scope : String) :
    head.innerScope scope = scope := by
  cases head <;> first | rfl | cases h

/-- A parsed tree with its file, which consists of items, and the record of the file. -/
structure IsFile (ps : List ParsedTree) (rs : List Record) (p : ParsedTree) (file : SourceFile) (root : Record) :
    Prop where
  mem : p ∈ ps
  parses : p.file? = some file
  items : ∀ d ∈ file.items, d.IsItem
  root_mem : root ∈ rs
  kind : root.node.kind = .file
  parent : root.node.parent? = none

/-- The record of a declaration of a file. -/
abbrev RecordedIn (ps : List ParsedTree) (rs : List Record) (p : ParsedTree) (file : SourceFile) (root : Record) :
    Record → Surroundings → Declaration → Prop :=
  Recorded (table ps) p.tree rs ⟨p.tree.module, none, root.node.index⟩ file.items

/-- A declaration whose record stands in its scope, and if it is a member, in what owns it. -/
structure Placed (ps : List ParsedTree) (rs : List Record) (r : Record) (s : Surroundings) (d : Declaration) :
    Prop where
  formed : d.WellFormed
  stands : StandsIn rs r s.scope
  member : d.head.kind.isMember → ∃ p, IsParent rs p r ∧ Owns ps rs p s.container ∧ StandsIn rs p s.scope ∧
    (d.head.kind = .method → p.node.kind = .impl ∨ p.node.kind = .trait)

section
variable {ps : List ParsedTree} {rs : List Record} {p : ParsedTree} {file : SourceFile} {root o r : Record}
  {s : Surroundings} {d : Declaration}

/-- What stands right below a file is outermost. -/
theorem IsFile.isOutermost (hn : Numbered 0 rs) (hf : IsFile ps rs p file root) (hp : IsParent rs root r) :
    IsOutermost rs r := by
  refine .through hn hp (by rw [hf.kind]; rfl) fun x he => ?_
  cases he with
  | single hs | tail _ hs => exact nomatch hf.parent.symm.trans hs.2

namespace RecordedIn

theorem recordedFrom (hf : IsFile ps rs p file root) (h : RecordedIn ps rs p file root r s d) :
    RecordedFrom ps r s d :=
  ⟨p, hf.mem, file, hf.parses, h.mem_recordedAll, h.eq_record⟩

/-- What a declaration holds stands in its inner scope. -/
theorem standsIn_inside (hn : Numbered 0 rs) (h : RecordedIn ps rs p file root o s d) (hp : IsParent rs o r)
    (ht : r.node.tree = p.tree) (hd : Placed ps rs o s d) : StandsIn rs r (d.head.innerScope s.scope) := by
  have hk := h.kind_eq
  have hs := h.symbol?_eq
  have home (hk : o.node.kind.opensScope) : IsHome rs o r := .of_parent hn hp hk
  obtain ⟨head, extent, attributes, header, body⟩ := d
  cases head with
  | module name => exact .inside (home (by rw [hk]; rfl)) (.inl hk) hs
  | fn name => exact .inside (home (by rw [hk]; rfl)) (.inr hk) hs
  | method name =>
    -- a method's symbol is named in its type, but its body in the scope of what owns it
    obtain ⟨q, hq, -, hqs, hm⟩ := hd.member rfl
    exact .method (home (by rw [hk]; rfl)) hk hs hq (hm rfl) hqs
  | _ => exact hd.stands.through hn hp (by rw [hk]; rfl) (ht.trans h.tree_eq.symm)

/-- A type, variant, trait or implementation owns what it holds. -/
theorem owns (hf : IsFile ps rs p file root) (h : RecordedIn ps rs p file root o s d) (hd : Placed ps rs o s d)
    (hk : d.head.kind ∈ [.struct, .enum, .union, .variant, .trait, .impl]) (index : Nat) :
    Owns ps rs o (s.inside (table ps) index d.head).container := by
  have hfrom := h.recordedFrom hf
  have hs := h.symbol?_eq
  have named {symbol : Symbol} (hs : o.symbol? = some symbol)
      (hk : d.head.kind ∈ [.struct, .enum, .union, .variant, .trait]) : Owns ps rs o symbol.qualifiedName :=
    .named (h.kind_eq ▸ hk) hs
  obtain ⟨head, extent, attributes, header, body⟩ := d
  cases head with
  | struct | enum | union | variant | trait => exact named hs (by simp [Head.kind])
  | impl parameters trait? subject => exact .impl hfrom rfl hd.stands
  | _ => simp [Head.kind] at hk

theorem placed (hn : Numbered 0 rs) (hf : IsFile ps rs p file root) (h : RecordedIn ps rs p file root r s d) :
    Placed ps rs r s d := by
  induction h with
  | @top k d hd mem =>
    refine ⟨(hf.items d hd).formed, .root (hf.isOutermost hn ⟨hf.root_mem, rfl⟩), fun hm => ?_⟩
    simp [not_isMember_of_isItem (hf.items d hd).sort] at hm
  | @inside o s d e k outer he mem ih =>
    have hp := outer.isParent e k
    cases ih.formed with
    | mk named header_items header_formed body_admitted body_formed =>
      refine ⟨body_formed e he, ?_, fun hm => ?_⟩
      · rw [Surroundings.inside_scope]
        exact standsIn_inside hn outer hp rfl ih
      · obtain ⟨hkind, hmethod⟩ := owner_of_admits (body_admitted e he) hm
        -- what owns members opens no scope, so they stand in the scope that it stands in
        have howner : ∀ k ∈ [Kind.struct, .enum, .union, .variant, .trait, .impl], k.opensScope = false := by
          decide
        refine ⟨o, hp, owns hf outer ih hkind _, ?_, ?_⟩
        · rw [Surroundings.inside_scope, innerScope_eq (howner _ hkind)]
          exact ih.stands
        · rw [outer.kind_eq]
          exact hmethod

end RecordedIn
end

/-! ### Symbols -/

theorem nameSpace_of_symbol? {t : ScopeTable} {s : Surroundings} {d : Declaration} {symbol : Symbol}
    (h : symbol? t s d = some symbol) :
    symbol.kind = d.head.kind ∧ symbol.nameSpace = if d.head.kind.isMember then s.container else s.scope := by
  obtain ⟨head, extent, attributes, header, body⟩ := d
  cases head with
  | itemMacro name? =>
    cases name? with
    | none => cases h
    | some name =>
      cases h
      exact ⟨rfl, rfl⟩
  | impl | use | externCrate | foreignMod | memberMacro | other => cases h
  | _ =>
    cases h
    exact ⟨rfl, rfl⟩

/-- A record with a symbol is that of a declaration of a file. -/
theorem exists_recordedIn {c : HostCompilation} {support : SupportModule} {r : Record} {symbol : Symbol}
    (hr : r ∈ (DeclarationIndex.build c support).records) (hs : r.symbol? = some symbol) :
    ∃ p file root s d, IsFile (c.trees.map ofTree) (DeclarationIndex.build c support).records p file root ∧
      RecordedIn (c.trees.map ofTree) (DeclarationIndex.build c support).records p file root r s d := by
  obtain ⟨p, hp, k, hrk, hsub⟩ := exists_records_of_mem_allRecords hr
  unfold records at hrk hsub
  rw [List.cons_subset] at hsub
  rw [List.mem_cons] at hrk
  rcases hrk with rfl | hrk
  · cases hs
  · cases hf : p.file? with
    | none => simp [hf] at hrk
    | some file =>
      rw [hf] at hrk hsub
      have hi : ∀ d ∈ file.items, d.IsItem := by
        obtain ⟨tree, -, rfl⟩ := List.mem_map.mp hp
        exact SourceFile.ofText?_items hf
      obtain ⟨s, d, hd⟩ := recorded_walkAll file.items hsub.2 (fun d hd _ => .top hd) r hrk
      exact ⟨p, file, _, s, d, ⟨hp, hf, hi, hsub.1, rfl, rfl⟩, hd⟩

/-- An index lists the nodes of its trees in pre-order, and names every symbol in its place. -/
theorem build_isListing (c : HostCompilation) (support : SupportModule) :
    IsListing c.trees (DeclarationIndex.build c support).records ∧
      ∀ r ∈ (DeclarationIndex.build c support).records, ∀ symbol, r.symbol? = some symbol →
        NamedInPlace (c.trees.map ofTree) (DeclarationIndex.build c support).records r symbol := by
  have hlist := isListing_allRecords (table (c.trees.map ofTree)) (c.trees.map ofTree)
  have htrees : (c.trees.map ofTree).map (·.tree) = c.trees := by
    rw [List.map_map]
    exact List.map_id' c.trees
  rw [htrees] at hlist
  refine ⟨hlist, fun r hr symbol hs => ?_⟩
  obtain ⟨p, file, root, s, d, hf, hd⟩ := exists_recordedIn hr hs
  have hplaced := hd.placed (numbered_allRecords 0 _) hf
  rw [hd.symbol?_eq] at hs
  obtain ⟨hkind, hspace⟩ := nameSpace_of_symbol? hs
  refine ⟨hkind.trans hd.kind_eq.symm, rfl, fun hm => ?_, fun hm scope => ?_⟩
  · rw [hkind] at hm
    rw [hspace, if_pos hm]
    obtain ⟨q, hq, howns, -⟩ := hplaced.member hm
    exact ⟨q, hq, howns⟩
  · rw [hspace, if_neg (by rw [← hkind, hm]; decide)]
    refine ⟨fun h => h.unique (hangs_allRecords _ 0 _) hplaced.stands, ?_⟩
    rintro rfl
    exact hplaced.stands

/-- A method belongs to the type that its implementation is for, but a type in its body is named below the module. -/
theorem build_isListing_method :
    let tree : SourceTree := ⟨"src/lib.rs", "crate",
      "mod m \x7b struct A; impl A \x7b fn f() \x7b struct S; \x7d \x7d \x7d", .e2021, _, rfl⟩
    let rs := (DeclarationIndex.build ⟨[tree], .e2021⟩ default).records
    IsListing [tree] rs ∧ (∃ f ∈ rs, ∃ p, IsParent rs p f ∧ Owns [ofTree tree] rs p "crate::m::A") ∧
      ∃ r ∈ rs, StandsIn rs r "crate::m::f" := by
  intro tree rs
  have hf : (rs[4]?.bind (·.symbol?)) = some ⟨.method, "f", "crate::m::A", [], []⟩ := by decide +kernel
  have hs : (rs[5]?.bind (·.symbol?)) = some ⟨.struct, "S", "crate::m::f", [], []⟩ := by decide +kernel
  obtain ⟨f, hf, hsf⟩ := Option.bind_eq_some_iff.mp hf
  obtain ⟨r, hr, hsr⟩ := Option.bind_eq_some_iff.mp hs
  obtain ⟨hlist, hnamed⟩ := build_isListing ⟨[tree], .e2021⟩ default
  refine ⟨hlist, ⟨f, List.mem_of_getElem? hf, (hnamed f (List.mem_of_getElem? hf) _ hsf).member rfl⟩, r,
    List.mem_of_getElem? hr, ?_⟩
  exact ((hnamed r (List.mem_of_getElem? hr) _ hsr).item rfl _).mpr rfl

end Index
end GeneratorHost
