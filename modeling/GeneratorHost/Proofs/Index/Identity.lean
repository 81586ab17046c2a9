import GeneratorHost.Proofs.Index.Namespaces
import GeneratorHost.Proofs.Text.Colons

/-! What a qualified name tells about a declaration: its name and the names of the modules and functions around it, but
not which implementation a method is in, nor whether a name around it is that of a module or of a function. -/
namespace GeneratorHost

/-! ### Paths of names -/

theorem qualify_eq_qualify_iff {scope scope' name name' : String} (hn : ':' ∉ name.toList) (hn' : ':' ∉ name'.toList) :
    qualify scope name = qualify scope' name' ↔ scope = scope' ∧ name = name' := by
  constructor
  · intro h
    have hs := congrArg parentModule? h
    rw [parentModule?_qualify scope hn, parentModule?_qualify scope' hn', Option.some.injEq] at hs
    subst hs
    have hl := congrArg String.toList h
    rw [qualify_toList, qualify_toList, List.append_cancel_left_eq, List.cons.injEq, List.cons.injEq] at hl
    exact ⟨rfl, String.toList_inj.mp hl.2.2⟩
  · rintro ⟨rfl, rfl⟩
    rfl

theorem length_foldl_qualify (scope : String) (names : List String) :
    scope.length + names.length ≤ (names.foldl qualify scope).length := by
  induction names generalizing scope with
  | nil => exact Nat.le_refl _
  | cons name names ih =>
    have h := ih (qualify scope name)
    have hl : (qualify scope name).length = scope.length + 2 + name.length := by
      rw [qualify, String.length_append, String.length_append]
      rfl
    rw [List.foldl_cons, List.length_cons]
    omega

/-- From one scope on, different names lead to different scopes. -/
theorem foldl_qualify_inj {scope : String} {names names' : List String} (hn : ∀ n ∈ names, ':' ∉ n.toList)
    (hn' : ∀ n ∈ names', ':' ∉ n.toList) :
    names.foldl qualify scope = names'.foldl qualify scope ↔ names = names' := by
  refine ⟨fun h => ?_, congrArg _⟩
  -- a scope may itself hold colons, so only its length tells it from one that names lead to
  have hlonger (names : List String) (name : String) : (names ++ [name]).foldl qualify scope ≠ scope := by
    intro he
    have hl := length_foldl_qualify scope (names ++ [name])
    rw [he, List.length_append, List.length_singleton] at hl
    omega
  induction names using List.reverseRecOn generalizing names' with
  | nil =>
    cases names' using List.reverseRecOn with
    | nil => rfl
    | append_singleton names' name' => exact absurd h.symm (hlonger names' name')
  | append_singleton names name ih =>
    cases names' using List.reverseRecOn with
    | nil => exact absurd h (hlonger names name)
    | append_singleton names' name' =>
      simp only [List.forall_mem_append, List.forall_mem_singleton] at hn hn'
      simp only [List.foldl_append, List.foldl_cons, List.foldl_nil] at h
      obtain ⟨hs, rfl⟩ := (qualify_eq_qualify_iff hn.2 hn'.2).mp h
      rw [ih hn.1 hn'.1 hs]

namespace Index
open Declaration ParsedTree

/-- The names of the modules, functions and methods around a record, the innermost last. -/
inductive Around (rs : List Record) : Record → List String → Prop
  | root {r : Record} (top : IsOutermost rs r) : Around rs r []
  | inside {h r : Record} {symbol : Symbol} {names : List String} (home : IsHome rs h r)
      (named : h.symbol? = some symbol) (outer : Around rs h names) : Around rs r (names ++ [symbol.name])

section
variable {ps : List ParsedTree} {rs : List Record} {p : ParsedTree} {file : SourceFile} {root o r : Record}
  {s : Surroundings} {d : Declaration}

theorem Around.through (hn : Numbered 0 rs) (hp : IsParent rs o r) (ho : o.node.kind.opensScope = false)
    {names : List String} (ha : Around rs o names) : Around rs r names := by
  cases ha with
  | root top => exact .root (top.through hn hp ho)
  | inside home named outer => exact .inside (home.through hn hp ho) named outer

/-- What opens a scope has a name, by which the scope is named. -/
theorem named_of_opensScope {t : ScopeTable} (hd : d.WellFormed) (ho : d.head.kind.opensScope) :
    ∃ symbol, symbol? t s d = some symbol ∧ ':' ∉ symbol.name.toList ∧
      d.head.innerScope s.scope = qualify s.scope symbol.name := by
  cases hd with
  | @mk head extent attributes header body named =>
    cases head with
    | module | fn | method => exact ⟨_, rfl, colon_not_mem_of_isIdentifier named.identifier, rfl⟩
    | _ => cases ho

/-- The scope of a declaration is spelled by the module of its tree and the names around its record. -/
theorem RecordedIn.exists_around (hn : Numbered 0 rs) (hf : IsFile ps rs p file root)
    (h : RecordedIn ps rs p file root r s d) :
    ∃ names, Around rs r names ∧ (∀ n ∈ names, ':' ∉ n.toList) ∧ s.scope = names.foldl qualify p.tree.module := by
  induction h with
  | top => exact ⟨[], .root (hf.isOutermost hn ⟨hf.root_mem, rfl⟩), by simp, rfl⟩
  | @inside o s d e k outer he mem ih =>
    obtain ⟨names, ha, hc, hs⟩ := ih
    have hp := outer.isParent e k
    rw [Surroundings.inside_scope]
    cases ho : d.head.kind.opensScope with
    | true =>
      obtain ⟨symbol, hsymbol, hname, hinner⟩ := named_of_opensScope (placed hn hf outer).formed ho
      refine ⟨names ++ [symbol.name],
        .inside (.of_parent hn hp (outer.kind_eq ▸ ho)) (outer.symbol?_eq.trans hsymbol) ha, ?_, ?_⟩
      · rw [List.forall_mem_append, List.forall_mem_singleton]
        exact ⟨hc, hname⟩
      · rw [hinner, hs, List.foldl_append]
        rfl
    | false => exact ⟨names, ha.through hn hp (outer.kind_eq ▸ ho), hc, (innerScope_eq ho _).trans hs⟩

end

/-! ### Types of one name -/

section
variable {c : HostCompilation} {support : SupportModule} {r r' : Record} {symbol symbol' : Symbol}

theorem isItem_of_isClassLike (hk : symbol.kind.isClassLike) : symbol.IsItem where
  kind := by
    revert hk
    cases symbol.kind <;> decide
  named := by
    intro h
    rw [h] at hk
    cases hk

/-- A type is named below the module of its tree and the names around it. -/
theorem exists_spelling (hr : r ∈ (DeclarationIndex.build c support).records) (hs : r.symbol? = some symbol)
    (hk : symbol.kind.isClassLike) :
    ∃ names, Around (DeclarationIndex.build c support).records r names ∧ (∀ n ∈ names, ':' ∉ n.toList) ∧
      ':' ∉ symbol.name.toList ∧ symbol.nameSpace = names.foldl qualify r.node.tree.module := by
  obtain ⟨p, file, root, s, d, hf, hd⟩ := exists_recordedIn hr hs
  have hn := numbered_allRecords (t := table (c.trees.map ofTree)) 0 (c.trees.map ofTree)
  obtain ⟨names, ha, hc, hscope⟩ := hd.exists_around hn hf
  rw [hd.symbol?_eq] at hs
  obtain ⟨hspace, -, hname⟩ := item_of_symbol? (hd.placed hn hf).formed hs (isItem_of_isClassLike hk)
  refine ⟨names, ha, hc, colon_not_mem_of_isIdentifier hname.identifier, ?_⟩
  rw [hspace, hscope, hd.tree_eq]

/-- Structs, enums and unions have one qualified name exactly if they have one name, and the module of the tree and
the names around spell one scope. In one module, these are the same names. Types of one qualified name have the same
interfaces. -/
theorem qualifiedName_eq_iff (hr : r ∈ (DeclarationIndex.build c support).records)
    (hr' : r' ∈ (DeclarationIndex.build c support).records) (hs : r.symbol? = some symbol)
    (hs' : r'.symbol? = some symbol') (hk : symbol.kind.isClassLike) (hk' : symbol'.kind.isClassLike) :
    ∃ names names', Around (DeclarationIndex.build c support).records r names ∧
      Around (DeclarationIndex.build c support).records r' names' ∧
      (symbol.qualifiedName = symbol'.qualifiedName ↔ symbol.name = symbol'.name ∧
        names.foldl qualify r.node.tree.module = names'.foldl qualify r'.node.tree.module) ∧
      (r.node.tree.module = r'.node.tree.module →
        (symbol.qualifiedName = symbol'.qualifiedName ↔ symbol.name = symbol'.name ∧ names = names')) ∧
      (symbol.qualifiedName = symbol'.qualifiedName → symbol.interfaces = symbol'.interfaces) := by
  obtain ⟨names, ha, hc, hn, hspace⟩ := exists_spelling hr hs hk
  obtain ⟨names', ha', hc', hn', hspace'⟩ := exists_spelling hr' hs' hk'
  have hiff : symbol.qualifiedName = symbol'.qualifiedName ↔ symbol.name = symbol'.name ∧
      names.foldl qualify r.node.tree.module = names'.foldl qualify r'.node.tree.module := by
    rw [Symbol.qualifiedName, Symbol.qualifiedName, qualify_eq_qualify_iff hn hn', hspace, hspace', and_comm]
  refine ⟨names, names', ha, ha', hiff, fun hm => ?_, fun he => ?_⟩
  · rw [hiff, hm, foldl_qualify_inj hc hc']
  · obtain ⟨p, file, root, s, d, -, hd⟩ := exists_recordedIn hr hs
    obtain ⟨p', file', root', s', d', -, hd'⟩ := exists_recordedIn hr' hs'
    rw [hd.symbol?_eq] at hs
    rw [hd'.symbol?_eq] at hs'
    rw [(nameSpace_of_symbol? hs).1] at hk
    rw [(nameSpace_of_symbol? hs').1] at hk'
    rw [interfaces_of_symbol? hk hs, interfaces_of_symbol? hk' hs', he]

end

/-- The methods of two implementations have one name, and so have the types in them. -/
theorem qualifiedName_eq_iff_siblings :
    let tree : SourceTree := ⟨"src/lib.rs", "crate",
      "struct A; struct B; impl A \x7b fn f() \x7b struct S; \x7d \x7d
        impl B \x7b fn f() \x7b enum S \x7b\x7d \x7d \x7d",
      .e2021, _, rfl⟩
    let rs := (DeclarationIndex.build ⟨[tree], .e2021⟩ default).records
    ∃ r ∈ rs, ∃ r' ∈ rs, r.node.kind = .struct ∧ r'.node.kind = .enum ∧
      ∃ names, Around rs r names ∧ Around rs r' names := by
  intro tree rs
  have h5 : rs[5]?.map (fun r => (r.node.kind, r.node.tree.module, r.symbol?)) =
      some (.struct, "crate", some ⟨.struct, "S", "crate::f", [], []⟩) := by decide +kernel
  have h8 : rs[8]?.map (fun r => (r.node.kind, r.node.tree.module, r.symbol?)) =
      some (.enum, "crate", some ⟨.enum, "S", "crate::f", [], []⟩) := by decide +kernel
  obtain ⟨r, hr, h5⟩ := Option.map_eq_some_iff.mp h5
  obtain ⟨r', hr', h8⟩ := Option.map_eq_some_iff.mp h8
  simp only [Prod.mk.injEq] at h5 h8
  have hr := List.mem_of_getElem? hr
  have hr' := List.mem_of_getElem? hr'
  obtain ⟨names, names', ha, ha', -, hiff, -⟩ := qualifiedName_eq_iff hr hr' h5.2.2 h8.2.2 rfl rfl
  obtain ⟨-, rfl⟩ := (hiff (h5.2.1.trans h8.2.1.symm)).mp rfl
  exact ⟨r, hr, r', hr', h5.1, h8.1, names, ha, ha'⟩

/-- Two records that stand directly in the same module or body. -/
def Together (rs : List Record) (r r' : Record) : Prop :=
  (∃ h, IsHome rs h r ∧ IsHome rs h r') ∨ r.node.tree = r'.node.tree ∧ IsOutermost rs r ∧ IsOutermost rs r'

/-- Types that do not stand together have different qualified names. -/
def NamesApart (c : HostCompilation) (support : SupportModule) : Prop :=
  let rs := (DeclarationIndex.build c support).records
  ∀ r ∈ rs, ∀ r' ∈ rs, ∀ symbol symbol', r.symbol? = some symbol → r'.symbol? = some symbol' →
    symbol.kind.isClassLike → symbol'.kind.isClassLike → ¬ Together rs r r' →
    symbol.qualifiedName ≠ symbol'.qualifiedName

/-- The bodies of methods of two implementations are no different places for names. -/
theorem not_namesApart :
    ¬ ∀ c support, c.trees.Pairwise (fun a b => a.module ≠ b.module) → NamesApart c support := by
  let tree : SourceTree := ⟨"src/lib.rs", "crate",
    "struct A; struct B; impl A \x7b fn f() \x7b struct S; \x7d \x7d impl B \x7b fn f() \x7b struct S; \x7d \x7d",
    .e2021, _, rfl⟩
  let rs := (DeclarationIndex.build ⟨[tree], .e2021⟩ default).records
  let symbol : Symbol := ⟨.struct, "S", "crate::f", [], []⟩
  obtain ⟨hf, hs, hf', hs'⟩ :
      (rs[4]?.map fun r => (r.node.index, r.node.kind)) = some (4, .method) ∧
      (rs[5]?.map fun r => (r.node.parent?, r.symbol?)) = some (some 4, some symbol) ∧
      (rs[7]?.map fun r => (r.node.index, r.node.kind)) = some (7, .method) ∧
      (rs[8]?.map fun r => (r.node.parent?, r.symbol?)) = some (some 7, some symbol) := by
    decide +kernel
  simp only [Option.map_eq_some_iff, Prod.mk.injEq] at hf hs hf' hs'
  obtain ⟨f, hf, hfi, hfk⟩ := hf
  obtain ⟨s, hs, hsp, hss⟩ := hs
  obtain ⟨f', hf', hfi', hfk'⟩ := hf'
  obtain ⟨s', hs', hsp', hss'⟩ := hs'
  have hg : Hangs none 0 rs := hangs_allRecords _ 0 _
  have home : IsHome rs f s :=
    .of_parent hg.numbered ⟨List.mem_of_getElem? hf, by rw [hsp, hfi]⟩ (by rw [hfk]; rfl)
  have home' : IsHome rs f' s' :=
    .of_parent hg.numbered ⟨List.mem_of_getElem? hf', by rw [hsp', hfi']⟩ (by rw [hfk']; rfl)
  intro h
  refine h ⟨[tree], .e2021⟩ default (List.pairwise_singleton _ _) s (List.mem_of_getElem? hs) s'
    (List.mem_of_getElem? hs') symbol symbol hss hss' rfl rfl ?_ rfl
  rintro (⟨x, hx, hx'⟩ | ⟨-, top, -⟩)
  · rw [hx.unique hg home] at hx'
    rw [hx'.unique hg home'] at hfi
    omega
  · exact top.not_isHome home

end Index
end GeneratorHost
