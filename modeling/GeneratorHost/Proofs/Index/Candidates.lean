import GeneratorHost.Index.Build
import GeneratorHost.Proofs.Index.Table

/-! The candidates of an index are exactly the marked types that have the generator trait. -/
namespace GeneratorHost.Index
open Declaration ParsedTree

/-- An attribute stands for a path if it resolves to it, or leads nowhere and is spelled like it. -/
def StandsFor (t : ScopeTable) (scope path : String) (a : Attribute) : Prop :=
  t.resolve scope a.path = some path ∨ t.resolve scope a.path = none ∧ a.spelling = path

instance (t : ScopeTable) (scope path : String) : DecidablePred (StandsFor t scope path) :=
  fun _ => inferInstanceAs (Decidable (_ ∨ _))

/-- A record is made from a declaration of one of the trees that parse. -/
def RecordedFrom (ps : List ParsedTree) (r : Record) (s : Surroundings) (d : Declaration) : Prop :=
  ∃ p ∈ ps, ∃ file, p.file? = some file ∧ MadeFrom (table ps) p.tree (recordedAll p.tree.module file.items) r s d

/-- A type has a trait by an implementation among declarations, or because a trait of it demands it. -/
def Provides (ps : List ParsedTree) (found : List (String × Declaration)) (type trait : String) : Prop :=
  ∃ direct, Implements ps found type direct ∧ Relation.ReflTransGen (Demands ps found) direct trait

/-- A record of a struct, enum or union that carries a marker exactly once. -/
structure IsMarked (ps : List ParsedTree) (marker : String) (r : Record) : Prop where
  classLike : r.node.kind.isClassLike
  once : ∃ s d, RecordedFrom ps r s d ∧ d.attributes.countP (StandsFor (table ps) s.scope marker) = 1

/-- A record of a type that has an interface by some declarations. -/
def IsProvided (ps : List ParsedTree) (found : List (String × Declaration)) (interface : String) (r : Record) : Prop :=
  ∃ symbol, r.symbol? = some symbol ∧ Provides ps found symbol.qualifiedName interface

def IsCandidate (ps : List ParsedTree) (found : List (String × Declaration)) (marker interface : String)
    (r : Record) : Prop :=
  IsMarked ps marker r ∧ IsProvided ps found interface r

/-! ### Symbols of records -/

section
variable {t : ScopeTable} {s : Surroundings} {d : Declaration} {symbol : Symbol}

theorem attributeData_path_eq_iff {scope path : String} {a : Attribute} :
    (attributeData t scope a).path = path ↔ StandsFor t scope path a := by
  unfold attributeData StandsFor
  cases t.resolve scope a.path <;> simp

theorem attributes_of_symbol? (h : symbol? t s d = some symbol) :
    symbol.attributes = d.attributes.map (attributeData t s.scope) := by
  unfold symbol? at h
  split at h <;> cases h <;> rfl

/-- A symbol has as many attributes of a path as its declaration has attributes that stand for it. -/
theorem attributeCount_of_symbol? (h : symbol? t s d = some symbol) (path : String) :
    symbol.attributeCount path = d.attributes.countP (StandsFor t s.scope path) := by
  rw [Symbol.attributeCount, attributes_of_symbol? h, List.count, List.countP_map, List.countP_map]
  congr 1
  funext a
  rw [Bool.eq_iff_iff]
  simp [attributeData_path_eq_iff]

/-- A struct, enum or union has the traits that the scope table knows for its qualified name. -/
theorem interfaces_of_symbol? (hk : d.head.kind.isClassLike) (h : symbol? t s d = some symbol) :
    symbol.interfaces = t.interfacesOf symbol.qualifiedName := by
  obtain ⟨head, extent, attributes, header, body⟩ := d
  cases head with
  | struct | enum | union =>
    cases h
    rfl
  | _ => cases hk

end

/-! ### Candidates -/

section
variable {ps : List ParsedTree} {r : Record}

/-- Every record but those of whole files is made from a declaration. -/
theorem exists_recordedFrom_of_parent? (hr : r ∈ allRecords (table ps) 0 ps) :
    (r.node.parent? = none ∧ r.symbol? = none) ∨ ∃ s d, RecordedFrom ps r s d := by
  obtain ⟨p, hp, k, hr, -⟩ := exists_records_of_mem_allRecords hr
  unfold records at hr
  rw [List.mem_cons] at hr
  rcases hr with rfl | hr
  · exact .inl ⟨rfl, rfl⟩
  · cases hf : p.file? with
    | none => simp [hf] at hr
    | some file =>
      rw [hf] at hr
      obtain ⟨s, d, hd⟩ := exists_madeFrom_walkAll file.items hr
      exact .inr ⟨s, d, p, hp, file, hf, hd⟩

theorem exists_recordedFrom {symbol : Symbol} (hr : r ∈ allRecords (table ps) 0 ps)
    (hs : r.symbol? = some symbol) : ∃ s d, RecordedFrom ps r s d :=
  (exists_recordedFrom_of_parent? hr).resolve_left fun h => by simp [h.2] at hs

/-- A symbol has as many attributes of a path as attributes of its declaration stand for it. -/
theorem RecordedFrom.attributeCount {s : Surroundings} {d : Declaration} (h : RecordedFrom ps r s d)
    {symbol : Symbol} (hs : r.symbol? = some symbol) (path : String) :
    symbol.attributeCount path = d.attributes.countP (StandsFor (table ps) s.scope path) := by
  obtain ⟨p, -, file, -, hm⟩ := h
  rw [hm.eq] at hs
  exact attributeCount_of_symbol? hs path

/-- A struct, enum or union has an interface if what the collector finds provides it. -/
theorem RecordedFrom.implements_iff {s : Surroundings} {d : Declaration} (h : RecordedFrom ps r s d)
    (hk : r.node.kind.isClassLike) {symbol : Symbol} (hs : r.symbol? = some symbol) {interface : String} :
    symbol.implements interface ↔ Provides ps (collected ps) symbol.qualifiedName interface := by
  obtain ⟨p, -, file, -, hm⟩ := h
  rw [hm.eq] at hk hs
  rw [Symbol.implements, List.contains_iff_mem, interfaces_of_symbol? hk hs, mem_interfacesOf, Provides]

/-- The marker and the traits of a symbol decide what its declaration and all implementations say. -/
theorem isCandidate_iff {marker interface : String} (hr : r ∈ allRecords (table ps) 0 ps) :
    IsCandidate ps (collected ps) marker interface r ↔
      ∃ symbol, r.symbol? = some symbol ∧ r.node.kind.isClassLike ∧ symbol.attributeCount marker = 1 ∧
        symbol.implements interface := by
  constructor
  · rintro ⟨⟨hk, s, d, hd, hm⟩, symbol, hs, hp⟩
    exact ⟨symbol, hs, hk, (hd.attributeCount hs marker).trans hm, (hd.implements_iff hk hs).mpr hp⟩
  · rintro ⟨symbol, hs, hk, hm, hi⟩
    obtain ⟨s, d, hd⟩ := exists_recordedFrom hr hs
    refine ⟨⟨hk, s, d, hd, ?_⟩, symbol, hs, (hd.implements_iff hk hs).mp hi⟩
    rw [← hd.attributeCount hs, hm]

end

theorem map_filterMap_eq_map_filter {α β γ : Type} {f : α → Option β} {g : β → γ} {k : α → γ}
    {p : α → Prop} [DecidablePred p] {l : List α}
    (h : ∀ a ∈ l, (f a).map g = if p a then some (k a) else none) :
    (l.filterMap f).map g = (l.filter p).map k := by
  induction l with
  | nil => rfl
  | cons a l ih =>
    rw [List.forall_mem_cons] at h
    have hl := ih h.2
    have ha := h.1
    by_cases hp : p a
    · rw [if_pos hp, Option.map_eq_some_iff] at ha
      obtain ⟨b, hb, hg⟩ := ha
      simp [hb, hp, hg, hl]
    · rw [if_neg hp, Option.map_eq_none_iff] at ha
      simp [ha, hp, hl]

theorem map_filter_eq_map_filter_iff {α γ : Type} {k : α → γ} {p q : α → Prop} [DecidablePred p]
    [DecidablePred q] {l : List α} (hk : ∀ a ∈ l, ∀ b ∈ l, k a = k b → a = b) :
    (l.filter p).map k = (l.filter q).map k ↔ ∀ a ∈ l, (p a ↔ q a) := by
  constructor
  · intro h a ha
    have hm : k a ∈ (l.filter p).map k ↔ k a ∈ (l.filter q).map k := by rw [h]
    have hr (r : α → Prop) [DecidablePred r] : k a ∈ (l.filter r).map k ↔ r a := by
      rw [List.mem_map]
      constructor
      · rintro ⟨b, hb, he⟩
        rw [List.mem_filter, decide_eq_true_eq] at hb
        rw [← hk b hb.1 a ha he]
        exact hb.2
      · intro h
        exact ⟨a, List.mem_filter.mpr ⟨ha, decide_eq_true h⟩, rfl⟩
    rwa [hr p, hr q] at hm
  · intro h
    have he : l.filter p = l.filter q := List.filter_congr fun a ha => decide_eq_decide.mpr (h a ha)
    rw [he]

open Classical in
/-- The candidates of an index are, one for one and in order, the records of marked types that have
the interface by the declarations that are looked at. -/
def CandidatesExact (found : List ParsedTree → List (String × Declaration)) (c : HostCompilation)
    (support : SupportModule) : Prop :=
  let ps := c.trees.map ofTree
  let marker := (table ps).canonicalize support.markerPath
  let interface := (table ps).canonicalize support.interfacePath
  (DeclarationIndex.build c support).candidates.map (fun k => (k.node, some k.symbol)) =
    ((DeclarationIndex.build c support).records.filter
      (IsCandidate ps (found ps) marker interface)).map fun r => (r.node, r.symbol?)

/-- Candidates are exact by what the collector finds. -/
theorem candidatesExact_collected (c : HostCompilation) (support : SupportModule) :
    CandidatesExact collected c support := by
  classical
  refine map_filterMap_eq_map_filter fun r hr => ?_
  rw [isCandidate_iff hr]
  unfold DeclarationIndex.candidate?
  cases r.symbol? with
  | none => simp
  | some symbol =>
    simp only [Option.some.injEq, exists_eq_left', Bool.and_eq_true, decide_eq_true_eq, and_assoc]
    split <;> simp_all

/-- All declarations of the trees, wherever they stand. -/
abbrev everywhere : List ParsedTree → List (String × Declaration) := nested (fun _ => true) (fun _ => true)

/-- Candidates are exact by what the collector finds, and by all declarations exactly if these give
no marked type more and none less. -/
theorem candidatesExact_everywhere_iff (c : HostCompilation) (support : SupportModule) :
    let ps := c.trees.map ofTree
    let marker := (table ps).canonicalize support.markerPath
    let interface := (table ps).canonicalize support.interfacePath
    CandidatesExact collected c support ∧
      (CandidatesExact everywhere c support ↔
        ∀ r ∈ (DeclarationIndex.build c support).records, IsMarked ps marker r →
          (IsProvided ps (everywhere ps) interface r ↔ IsProvided ps (collected ps) interface r)) := by
  classical
  intro ps marker interface
  have hc := candidatesExact_collected c support
  refine ⟨hc, ?_⟩
  have hn : Numbered 0 (DeclarationIndex.build c support).records := numbered_allRecords 0 ps
  rw [CandidatesExact, hc, eq_comm, map_filter_eq_map_filter_iff]
  · simp only [IsCandidate, and_congr_right_iff]
    exact Iff.rfl
  · intro r hr r' hr' he
    exact hn.eq_of_index_eq hr hr' (congrArg (·.1.index) he)

set_option maxRecDepth 4000 in
/-- An implementation in the signature of a foreign function is not found. -/
theorem not_candidatesExact_everywhere : ¬ ∀ c support, CandidatesExact everywhere c support := by
  let tree : SourceTree := ⟨"src/lib.rs", "crate",
    "use crate::selfgen_rt::\x7bgenerator, SourceGenerator\x7d; #[generator] pub struct S;
      extern \"C\" \x7b fn f(x: [u8; \x7b impl SourceGenerator for S \x7b\x7d 1 \x7d]); \x7d", .e2021, _, rfl⟩
  let ps := [ofTree tree]
  let marker := (table ps).canonicalize (default : SupportModule).markerPath
  let interface := (table ps).canonicalize (default : SupportModule).interfacePath
  let symbol : Symbol := ⟨.struct, "S", "crate", [⟨"crate::selfgen_rt::generator", ""⟩], []⟩
  have hp := ofTree_eq_ofChars tree String.toList_ofList
  obtain ⟨hc, hr, hm, hi⟩ : (DeclarationIndex.build ⟨[tree], .e2021⟩ default).candidates.length = 0 ∧
      (allRecords (table ps) 0 ps)[2]?.map (fun r => (r.node.kind, r.symbol?)) = some (.struct, some symbol) ∧
      symbol.attributeCount marker = 1 ∧ Implements ps (everywhere ps) symbol.qualifiedName interface := by
    simp only [DeclarationIndex.build, List.map_cons, List.map_nil, ps, marker, interface, hp]
    decide +kernel
  intro h
  have h := congrArg List.length (h ⟨[tree], .e2021⟩ default)
  rw [List.length_map, List.length_map, hc, eq_comm, List.length_eq_zero_iff, List.filter_eq_nil_iff] at h
  obtain ⟨r, hr, hp⟩ := Option.map_eq_some_iff.mp hr
  obtain ⟨hk, hs⟩ := Prod.mk.inj hp
  have hr := List.mem_of_getElem? hr
  obtain ⟨s, d, hd⟩ := exists_recordedFrom hr hs
  classical
  refine h r hr (decide_eq_true ⟨⟨by rw [hk]; rfl, s, d, hd, ?_⟩, symbol, hs, _, hi, .refl⟩)
  exact (hd.attributeCount hs _).symm.trans hm

end GeneratorHost.Index
