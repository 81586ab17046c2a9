import GeneratorHost.Proofs.Artifact.Names
import GeneratorHost.Proofs.Index.Marker
import GeneratorHost.Proofs.Scope.Facts
import GeneratorHost.Proofs.Token.Names
import GeneratorHost.Proofs.Unit.Root

/-! Which names of a support module work. The check of a configuration reads the name as a text, which may be
raw and stand between blanks and comments, and all else takes the text for the name itself. -/
namespace GeneratorHost
open UnitRoot

theorem UnitRoot.Writable.isSegment {name : String} (h : Writable name) : ScopeTable.IsSegment name := by
  refine ⟨h.1, ?_⟩
  rintro rfl
  exact absurd h (by decide)

namespace SupportModule

/-- The import of the marker and the interface from a support module of a name. -/
def exportsUse (name : String) : UseTree :=
  .path "crate" (.path name (.group [.name "generator", .name "SourceGenerator"]))

/-- A support module can be put into every unit, and the name that it is mounted under leads a host to its
exports. -/
structure Usable (s : SupportModule) : Prop where
  separate : ∀ names module file supportFile edition, (∀ n ∈ names, Writable n) → (∀ n ∈ module, Writable n) →
    (separate? (scopePath names) (scopePath module) file s.name supportFile edition).isSome
  joined : ∀ names text supportFile edition, (∀ n ∈ names, Writable n) →
    (joined? (scopePath names) text s.name supportFile edition).isSome
  mounted : ∃ name, s.tree.module = qualify "crate" name ∧
    (∀ file, mount? ("crate::" ++ s.name) file = some (mounting file [name])) ∧
    ∀ (c : HostCompilation) (scope : String),
      let table := Index.ParsedTree.table (c.trees.map Index.ParsedTree.ofTree)
      let index := DeclarationIndex.build c s
      ∃ marker interface,
        useFacts scope ⟨false, []⟩ (exportsUse name) =
          [.binding scope "generator" marker, .binding scope "SourceGenerator" interface] ∧
        table.resolve scope marker = some index.marker ∧ table.resolve scope interface = some index.interface

variable {s : SupportModule}

theorem usable_of_writable (hw : Writable s.name) : s.Usable := by
  have hs : ∀ n ∈ [s.name], Writable n := List.forall_mem_singleton.mpr hw
  have hg : segments (scopePath [s.name]) = [s.name] := segments_of_writable hs
  refine ⟨?_, ?_, s.name, crate_append s.name, ?_, ?_⟩
  · intro names module file supportFile edition hn hm
    rw [isSome_separate?_iff, hg, segments_of_writable hn, segments_of_writable hm]
    exact ⟨hs, hm, hn⟩
  · intro names text supportFile edition hn
    rw [isSome_joined?_iff, hg, segments_of_writable hn]
    exact ⟨hs, hn⟩
  · intro file
    rw [crate_append, mount?_eq_some_iff, hg]
    exact ⟨hs, rfl⟩
  · intro c scope table index
    have hr (item : String) (hi : ScopeTable.IsSegment item) : table.resolve scope ⟨false, ["crate", s.name, item]⟩ =
        some (table.canonicalize (scopePath [s.name, item])) :=
      Index.resolve_crate (List.forall_mem_cons.mpr ⟨hw.isSegment, List.forall_mem_singleton.mpr hi⟩) table scope
    refine ⟨⟨false, ["crate", s.name, "generator"]⟩, ⟨false, ["crate", s.name, "SourceGenerator"]⟩, rfl, ?_, ?_⟩
    · rw [hr "generator" ⟨by decide, by decide⟩, ← Index.markerPath_eq]
      rfl
    · rw [hr "SourceGenerator" ⟨by decide, by decide⟩, ← Index.interfacePath_eq]
      rfl

/-- A name's text whose segments can all be written is the name. -/
theorem isIdentifier_of_segments {name : String} (hn : isNameText name)
    (h : ∀ n ∈ segments (scopePath [name]), Writable n) : isIdentifier name.toList := by
  have hs : segments (scopePath [name]) = ((Text.splitColons name.toList).map String.ofList).dropWhile (· = "crate") := by
    rw [segments, scopePath_toList, List.flatMap_singleton, Text.splitColons_append (by decide), List.map_cons,
      String.ofList_toList, List.dropWhile_cons_of_pos (by simp)]
  rw [hs] at h
  have hcrate : isNameText "crate" = false := by decide
  rcases Text.splitColons_cases name.toList with hc | ⟨piece, rest, he, hc⟩
  · have hne : name ≠ "crate" := by
      rintro rfl
      rw [hcrate] at hn
      cases hn
    rw [hc, List.map_singleton, String.ofList_toList, List.dropWhile_cons_of_neg (by simpa using hne)] at h
    exact (h name (List.mem_singleton_self name)).1
  · have hp : isIdentifier piece := by
      rw [hc, List.map_cons] at h
      by_cases hpc : String.ofList piece = "crate"
      · rw [← String.toList_ofList (l := piece), hpc]
        decide
      · rw [List.dropWhile_cons_of_neg (by simpa using hpc)] at h
        simpa using (h _ List.mem_cons_self).1
    exact absurd hn (not_isNameText_of_identifier hp he)

end SupportModule

/-- A support module of a valid configuration works if and only if the configuration names it by an identifier
and nothing else; under any other name that is accepted no candidate has a root. -/
theorem usable_support_iff {c : PassConfig} (h : c.validate = .ok ()) :
    (c.support.Usable ↔ isIdentifier c.supportName.toList) ∧
    (¬ isIdentifier c.supportName.toList → ∀ name module file text supportFile edition,
      separate? name module file c.supportName supportFile edition = none ∧
        joined? name text c.supportName supportFile edition = none) := by
  have hn := PassConfig.isNameText_of_validate h
  refine ⟨⟨fun hu => ?_, fun hi => ?_⟩, fun hi name module file text supportFile edition => ⟨?_, ?_⟩⟩
  · have hs := hu.separate [] [] "" "" .e2021 (List.forall_mem_nil _) (List.forall_mem_nil _)
    exact SupportModule.isIdentifier_of_segments hn (isSome_separate?_iff.mp hs).1
  · exact SupportModule.usable_of_writable ⟨hi, not_neverRaw_of_isNameText hn⟩
  · rw [← Option.not_isSome_iff_eq_none]
    exact fun hs => hi (SupportModule.isIdentifier_of_segments hn (isSome_separate?_iff.mp hs).1)
  · rw [← Option.not_isSome_iff_eq_none]
    exact fun hs => hi (SupportModule.isIdentifier_of_segments hn (isSome_joined?_iff.mp hs).1)

/-- The name that is meant, and a text that is read as the same name. -/
theorem usable_support_iff_sample :
    (({} : PassConfig).validate = .ok () ∧ ({} : PassConfig).support.Usable) ∧
    ({ supportName := "selfgen_rt // shared" } : PassConfig).validate = .ok () ∧
    separate? "crate::gen::Alpha" "crate::gen" "gen.rs" "selfgen_rt // shared" "rt.rs" .e2021 = none := by
  have h : ({} : PassConfig).validate = .ok () := by decide +kernel
  have h' : ({ supportName := "selfgen_rt // shared" } : PassConfig).validate = .ok () := by decide +kernel
  refine ⟨⟨h, (usable_support_iff h).1.mpr (by decide +kernel)⟩, h', ?_⟩
  exact ((usable_support_iff h').2 (by decide +kernel) "crate::gen::Alpha" "crate::gen" "gen.rs" "" "rt.rs" .e2021).1

/-- A name may be raw in a configuration, and is looked for with the mark then. -/
theorem not_usable_of_validate : ¬ ∀ c : PassConfig, c.validate = .ok () → c.support.Usable := by
  intro h
  have hv : ({ supportName := "r#rt" } : PassConfig).validate = .ok () := by decide +kernel
  have hs := (h _ hv).separate [] [] "" "" .e2021 (List.forall_mem_nil _) (List.forall_mem_nil _)
  have hw : ¬ ∀ n ∈ segments (scopePath ["r#rt"]), Writable n := by decide +kernel
  exact hw (isSome_separate?_iff.mp hs).1

end GeneratorHost
