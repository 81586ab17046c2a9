import GeneratorHost.Index.Build
import GeneratorHost.Proofs.Index.Table
import GeneratorHost.Proofs.Scope.Bindings

/-! Which attributes are the marker in a scope that imports it. A scope has one set of items and one
table of imports for modules, types, functions and macros alike: of several imports of the marker's name
the last one counts, and an item of the name hides them all. -/
namespace GeneratorHost.Index
open ParsedTree

/-- The imports of a scope in the order of the trees, each with its name. -/
def imports (ps : List ParsedTree) (scope : String) : List (String × Path) :=
  (facts ps).filterMap (ScopeFact.binding? scope)

theorem imported?_table (ps : List ParsedTree) (scope name : String) :
    (table ps).imported? scope name = lastNamed name (imports ps scope) := by
  rw [table_eq]
  exact (ScopeTable.imported?_applyAll (facts ps) {} scope name).trans Option.or_none

section
variable {ps : List ParsedTree} {scope name : String} {a : Attribute}

/-- An attribute that is named like an item of its scope stands for the item. -/
theorem attributeData_path_of_item (hn : name ∉ ["crate", "self", "super"]) (ha : a.path = ⟨false, [name]⟩)
    (hi : name ∈ items ps scope) : (attributeData (table ps) scope a).path = qualify scope name := by
  rw [attributeData, ha, (declares_table_iff.mpr hi).resolve hn, Option.getD_some]

/-- Any other attribute stands for what the last import of its name leads to. -/
theorem attributeData_path_of_import (hn : name ∉ ["crate", "self", "super"]) (ha : a.path = ⟨false, [name]⟩)
    (hi : name ∉ items ps scope) {target : Path} (ht : lastNamed name (imports ps scope) = some target)
    {path : String} (hp : (table ps).resolveImport scope name target = some path) :
    (attributeData (table ps) scope a).path = path := by
  have hd : ¬ (table ps).Declares scope name := declares_table_iff.not.mpr hi
  rw [← imported?_table] at ht
  rw [attributeData, ha, ScopeTable.resolve_of_imported hn hd ht hp, Option.getD_some]

end

theorem marker_build (c : HostCompilation) (support : SupportModule) :
    (DeclarationIndex.build c support).marker = (table (c.trees.map ofTree)).canonicalize support.markerPath :=
  rfl

/-- An import of the marker's name in a scope leads to the marker. -/
def LeadsToMarker (c : HostCompilation) (support : SupportModule) (scope : String) (target : Path) : Prop :=
  (table (c.trees.map ofTree)).resolveImport scope "generator" target =
    some (DeclarationIndex.build c support).marker

/-- The path that the support module offers the marker under. -/
def exportPath (support : SupportModule) : Path := ⟨false, ["crate", support.name, "generator"]⟩

theorem markerPath_eq (support : SupportModule) : support.markerPath = scopePath [support.name, "generator"] := by
  apply String.toList_inj.mp
  simp [SupportModule.markerPath, SupportModule.module, scopePath_toList]

theorem interfacePath_eq (support : SupportModule) :
    support.interfacePath = scopePath [support.name, "SourceGenerator"] := by
  apply String.toList_inj.mp
  simp [SupportModule.interfacePath, SupportModule.module, scopePath_toList]

/-- From every scope, names behind the crate lead where the text of their path leads. -/
theorem resolve_crate {names : List String} (hn : ∀ n ∈ names, ScopeTable.IsSegment n) (t : ScopeTable)
    (scope : String) : t.resolve scope ⟨false, "crate" :: names⟩ = some (t.canonicalize (scopePath names)) := by
  have hc : ∀ n ∈ names, ':' ∉ n.toList := fun n hm => colon_not_mem_of_isIdentifier (hn n hm).1
  have hp : Path.ofMarked ("crate" :: names) = ⟨false, "crate" :: names⟩ := rfl
  have hr : t.resolve "crate" ⟨false, "crate" :: names⟩ ≠ none :=
    ScopeTable.descend_ne_none (fun hm => (hn "super" hm).2 rfl) "crate"
  obtain ⟨path, hr⟩ := Option.ne_none_iff_exists'.mp hr
  rw [ScopeTable.canonicalize, splitColons_scopePath hc, hp, hr, Option.getD_some]
  exact hr

theorem resolve_exportPath {support : SupportModule} (hs : ScopeTable.IsSegment support.name)
    (t : ScopeTable) : t.resolve "crate" (exportPath support) = some (t.canonicalize support.markerPath) := by
  have hg : ScopeTable.IsSegment "generator" := ⟨by decide +kernel, by decide⟩
  rw [markerPath_eq]
  exact resolve_crate (List.forall_mem_cons.mpr ⟨hs, List.forall_mem_singleton.mpr hg⟩) t "crate"

/-- The import of the export leads to the marker, if the export is not too many imports away from it. -/
theorem leadsToMarker_exportPath {c : HostCompilation} {support : SupportModule}
    (hs : ScopeTable.IsSegment support.name)
    (hd : (table (c.trees.map ofTree)).resolveWithin (ScopeTable.maxDepth - 1) "crate" (exportPath support) =
      (table (c.trees.map ofTree)).resolve "crate" (exportPath support)) (scope : String) :
    LeadsToMarker c support scope (exportPath support) := by
  rw [resolve_exportPath hs, ← marker_build] at hd
  exact hd

/-- Where the last import of the marker's name leads to the marker, other imports of the name, glob
imports and all that other scopes declare do not hide it. An item of the name in the scope does. -/
theorem attributeData_path_of_leadsToMarker (c : HostCompilation) (support : SupportModule) (scope : String)
    (target : Path) (ht : lastNamed "generator" (imports (c.trees.map ofTree) scope) = some target)
    (hp : LeadsToMarker c support scope target) (a : Attribute) (ha : a.path = ⟨false, ["generator"]⟩) :
    let ps := c.trees.map ofTree
    ("generator" ∉ items ps scope →
      (attributeData (table ps) scope a).path = (DeclarationIndex.build c support).marker) ∧
    ("generator" ∈ items ps scope → (attributeData (table ps) scope a).path = qualify scope "generator") := by
  intro ps
  have hn : "generator" ∉ ["crate", "self", "super"] := by decide
  constructor
  · intro hi
    exact attributeData_path_of_import hn ha hi ht hp
  · intro hi
    exact attributeData_path_of_item hn ha hi

/-- A host of a single file and a support module that offers the marker. -/
def markerHost (tree : SourceTree) : HostCompilation :=
  ⟨[tree, ⟨"src/selfgen_rt.rs", "crate::selfgen_rt", "pub use selfgen_macros::generator;", .e2021, _, rfl⟩], .e2021⟩

set_option maxRecDepth 4000 in
theorem attributeData_path_behind_function :
    let c := markerHost ⟨"src/lib.rs", "crate", "mod m \x7b pub fn generator() \x7b\x7d \x7d use m::generator;
      use m::*; use crate::selfgen_rt::generator; #[generator] struct S;", .e2021, _, rfl⟩
    let ps := c.trees.map ofTree
    lastNamed "generator" (imports ps "crate") = some (exportPath default) ∧
      LeadsToMarker c default "crate" (exportPath default) ∧ "generator" ∉ items ps "crate" ∧
      (attributeData (table ps) "crate" ⟨⟨false, ["generator"]⟩, "generator", ""⟩).path =
        "selfgen_macros::generator" := by
  intro c ps
  have hc := ofTree_eq_ofChars c.trees[0] String.toList_ofList
  obtain ⟨ht, hd, hi, hm⟩ : lastNamed "generator" (imports ps "crate") = some (exportPath default) ∧
      (table ps).resolveWithin (ScopeTable.maxDepth - 1) "crate" (exportPath default) =
        (table ps).resolve "crate" (exportPath default) ∧
      "generator" ∉ items ps "crate" ∧
      (table ps).canonicalize (default : SupportModule).markerPath = "selfgen_macros::generator" := by
    rw [show ps = ofTree c.trees[0] :: c.trees.tail.map ofTree from rfl, hc]
    decide +kernel
  have hs : ScopeTable.IsSegment (default : SupportModule).name := ⟨by decide +kernel, by decide⟩
  have hl : LeadsToMarker c default "crate" (exportPath default) := leadsToMarker_exportPath hs hd "crate"
  refine ⟨ht, hl, hi, ?_⟩
  rw [(attributeData_path_of_leadsToMarker c default "crate" _ ht hl _ rfl).1 hi, marker_build, hm]

/-- The attribute stands for the marker in every scope that imports the marker under its name. -/
def MarkerUnhidden (c : HostCompilation) (support : SupportModule) : Prop :=
  let ps := c.trees.map ofTree
  ∀ scope target a, ("generator", target) ∈ imports ps scope → LeadsToMarker c support scope target →
    a.path = ⟨false, ["generator"]⟩ →
      (attributeData (table ps) scope a).path = (DeclarationIndex.build c support).marker

/-- A single scope is enough in which the marker's name stands for something else. -/
private theorem not_markerUnhidden_of_resolve {tree : SourceTree} {trees : List SourceTree} {e : Edition}
    {cs : List Char} (htext : tree.text.toList = cs) (scope path : String)
    (h : let ps := ofChars tree cs :: trees.map ofTree
      (table ps).resolveWithin (ScopeTable.maxDepth - 1) "crate" (exportPath default) =
        (table ps).resolve "crate" (exportPath default) ∧
      ("generator", exportPath default) ∈ imports ps scope ∧
      (table ps).resolve scope ⟨false, ["generator"]⟩ = some path ∧
      (table ps).canonicalize (default : SupportModule).markerPath ≠ path) :
    ¬ MarkerUnhidden ⟨tree :: trees, e⟩ default := by
  have hs : ScopeTable.IsSegment (default : SupportModule).name := ⟨by decide +kernel, by decide⟩
  simp only [← ofTree_eq_ofChars tree htext, ← List.map_cons] at h
  obtain ⟨hd, hi, hr, hne⟩ := h
  intro hu
  have ha := hu scope _ ⟨⟨false, ["generator"]⟩, "generator", ""⟩ hi (leadsToMarker_exportPath hs hd scope) rfl
  rw [attributeData, hr, Option.getD_some, marker_build] at ha
  exact hne ha.symm

set_option maxRecDepth 4000 in
/-- A module of the marker's name hides it, and so does a later import of a function. -/
theorem not_markerUnhidden :
    ¬ MarkerUnhidden (markerHost ⟨"src/lib.rs", "crate", "mod generator \x7b\x7d
        use crate::selfgen_rt::generator; #[generator] struct S;", .e2021, _, rfl⟩) default ∧
      ¬ MarkerUnhidden (markerHost ⟨"src/lib.rs", "crate", "use crate::selfgen_rt::generator;
        mod m \x7b pub fn generator() \x7b\x7d \x7d use m::generator; #[generator] struct S;", .e2021, _, rfl⟩)
        default := by
  constructor
  · refine not_markerUnhidden_of_resolve String.toList_ofList "crate" "crate::generator" ?_
    decide +kernel
  · refine not_markerUnhidden_of_resolve String.toList_ofList "crate" "crate::m::generator" ?_
    decide +kernel

end GeneratorHost.Index
