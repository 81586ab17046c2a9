import GeneratorHost.Proofs.Artifact.Names
import GeneratorHost.Proofs.Text.Paths
import GeneratorHost.Unit.Compile

/-! Where the files of a unit are written, and which of them a file that the compiler reports is. A reported path is
that of the file it was written for, whole or without the folder, as long as the path of the candidate ends none of the
others. -/
namespace GeneratorHost
open FilePath

namespace SupportModule
variable {s : SupportModule}

theorem slash_not_mem_of_isIdentifier (h : UnitRoot.isIdentifier s.name.toList) :
    '/' ∉ s.name.toList := by
  have ha := s.isArtifactName_fileName h
  simp only [isArtifactName, Bool.and_eq_true, List.all_eq_true, decide_eq_true_iff] at ha
  exact fun hm => (ha.2 _ (s.toList_fileName ▸ List.mem_append_left _ hm)).1.1 rfl

theorem isFileName_fileName (h : '/' ∉ s.name.toList) : IsFileName s.fileName.toList := by
  rw [s.toList_fileName]
  have hl {short : List Char} (hs : short.length < 3) : s.name.toList ++ ['.', 'r', 's'] ≠ short := by
    rintro rfl
    rw [List.length_append] at hs
    exact absurd hs (Nat.not_lt.mpr (Nat.le_add_left _ _))
  refine ⟨?_, ?_, ?_⟩
  · rw [List.mem_append, not_or]
    exact ⟨h, by decide⟩
  · rw [isSkipped, Bool.or_eq_true, List.isEmpty_iff, decide_eq_true_iff, not_or]
    exact ⟨hl (by decide), hl (by decide)⟩
  · exact hl (by decide)

theorem fileName_eq_root_iff : s.fileName.toList = "lib.rs".toList ↔ s.name = "lib" := by
  rw [s.toList_fileName, show "lib.rs".toList = "lib".toList ++ ['.', 'r', 's'] by decide, List.append_left_inj,
    String.toList_inj]

end SupportModule

namespace UnitCompiler

/-- The names on the way from the source folder to a candidate's file. -/
def placeNames (path : String) : List (List Char) :=
  if (ofText path).names.isEmpty then ["candidate.rs".toList] else (ofText path).names.map PathPart.chars

theorem placeNames_ne_nil (path : String) : placeNames path ≠ [] := by
  unfold placeNames
  split
  · exact List.cons_ne_nil _ _
  · rename_i h
    exact fun he => h (List.isEmpty_iff.mpr (List.map_eq_nil_iff.mp he))

/-- A candidate's file is not in the workspace itself. -/
theorem cons_placeNames_ne {path : String} {folder cs : List Char} : folder :: placeNames path ≠ [cs] :=
  fun h => placeNames_ne_nil path (List.cons.inj h).2

theorem isFileName_of_mem_placeNames {path : String} : ∀ cs ∈ placeNames path, IsFileName cs := by
  unfold placeNames
  split
  · rw [List.forall_mem_singleton]
    exact ⟨by decide, by decide, by decide⟩
  · rw [List.forall_mem_map]
    intro part hp
    rw [names, List.mem_filter] at hp
    cases part with
    | name cs => exact isFileName_of_mem_ofText hp.1
    | root | current | up => exact absurd hp.2 Bool.false_ne_true

theorem placeOf_eq (path : String) : placeOf path = "/".intercalate ((placeNames path).map String.ofList) := by
  unfold placeOf placeNames
  dsimp only
  split
  · rw [List.map_singleton, String.ofList_toList, String.intercalate_singleton]
  · rw [List.map_map]
    rfl

theorem ofText_placeOf (path : String) : ofText (placeOf path) = (placeNames path).map .name := by
  rw [placeOf_eq]
  exact (ofText_intercalate (placeNames_ne_nil path) isFileName_of_mem_placeNames).1

theorem isFileName_src : IsFileName "src".toList := ⟨by decide, by decide, by decide⟩

theorem isFileName_root : IsFileName "lib.rs".toList := ⟨by decide, by decide, by decide⟩

/-- The file of a candidate is in the source folder or deeper. -/
theorem ofText_join_placeOf (folder path : String) : ofText (join (join folder "src") (placeOf path)) =
    ofText folder ++ .name "src".toList :: (placeNames path).map .name := by
  rw [placeOf_eq, (ofText_intercalate (placeNames_ne_nil path) isFileName_of_mem_placeNames).2,
    isFileName_src.ofText_join, List.append_assoc, List.singleton_append]

theorem ofText_join_src_placeOf (path : String) :
    ofText (join "src" (placeOf path)) = .name "src".toList :: (placeNames path).map .name := by
  rw [placeOf_eq, (ofText_intercalate (placeNames_ne_nil path) isFileName_of_mem_placeNames).2, isFileName_src.ofText,
    List.singleton_append]

end UnitCompiler

/-! ### Reported files -/

namespace FileMap

/-- The file that is picked is one of those to pick from, and none of them has a shorter path. -/
theorem exists_shortest (best : FilePath × String) (entries : List (FilePath × String)) :
    ∃ e ∈ best :: entries, entries.foldl (fun best? entry => some (shorter best? entry)) (some best) = some e ∧
      ∀ e' ∈ best :: entries, e.1.length ≤ e'.1.length := by
  induction entries generalizing best with
  | nil => exact ⟨best, List.mem_cons_self, rfl, List.forall_mem_singleton.mpr (Nat.le_refl _)⟩
  | cons entry entries ih =>
    obtain ⟨e, hm, he, hle⟩ := ih (shorter (some best) entry)
    rw [List.forall_mem_cons] at hle
    refine ⟨e, ?_, he, ?_⟩
    · rcases List.mem_cons.mp hm with rfl | hm
      · unfold shorter
        dsimp only
        split
        · exact List.mem_cons_of_mem _ List.mem_cons_self
        · exact List.mem_cons_self
      · exact List.mem_cons_of_mem _ (List.mem_cons_of_mem _ hm)
    · have hs : (shorter (some best) entry).1.length ≤ best.1.length ∧
          (shorter (some best) entry).1.length ≤ entry.1.length := by
        unfold shorter
        dsimp only
        split <;> omega
      rw [List.forall_mem_cons, List.forall_mem_cons]
      exact ⟨hle.1.trans hs.1, hle.1.trans hs.2, hle.2⟩

/-- A file is shown under its own name if its path ends in what was reported, and every other path that does is
longer. -/
theorem display_eq {files : FileMap} {written shown reported : String} (hm : (written, shown) ∈ files)
    (he : ofText reported <:+ ofText written)
    (hs : ∀ e ∈ files, ofText reported <:+ ofText e.1 → e.2 = shown ∨ (ofText written).length < (ofText e.1).length) :
    files.display reported = shown := by
  unfold display
  dsimp only
  generalize hk : List.filter _ _ = kept
  have hmem (e : FilePath × String) :
      e ∈ kept ↔ ∃ f ∈ files, ofText reported <:+ ofText f.1 ∧ (ofText f.1, f.2) = e := by
    rw [← hk, List.mem_filter, List.mem_map]
    constructor
    · rintro ⟨⟨f, hf, rfl⟩, hsuffix⟩
      exact ⟨f, hf, List.isSuffixOf_iff_suffix.mp hsuffix, rfl⟩
    · rintro ⟨f, hf, hsuffix, rfl⟩
      exact ⟨⟨f, hf, rfl⟩, List.isSuffixOf_iff_suffix.mpr hsuffix⟩
  have hw : (ofText written, shown) ∈ kept := (hmem _).mpr ⟨_, hm, he, rfl⟩
  cases kept with
  | nil => cases hw
  | cons best entries =>
    obtain ⟨e, hem, hfold, hle⟩ := exists_shortest best entries
    obtain ⟨f, hf, hsuffix, rfl⟩ := (hmem e).mp hem
    have hfold : (best :: entries).foldl (fun best? entry => some (shorter best? entry)) none =
      some (ofText f.1, f.2) := hfold
    rw [hfold]
    exact (hs f hf hsuffix).resolve_right (Nat.not_lt.mpr (hle _ hw))

theorem display_of_perm {files : FileMap} {own other third shown otherShown thirdShown reported : String}
    (hp : files.Perm [(own, shown), (other, otherShown), (third, thirdShown)]) (he : ofText reported <:+ ofText own)
    (ho : ofText reported <:+ ofText other → (ofText own).length < (ofText other).length)
    (ht : ofText reported <:+ ofText third → (ofText own).length < (ofText third).length) :
    files.display reported = shown := by
  refine display_eq (hp.mem_iff.mpr List.mem_cons_self) he fun e hm hs => ?_
  rw [hp.mem_iff] at hm
  simp only [List.mem_cons, List.not_mem_nil, or_false] at hm
  rcases hm with rfl | rfl | rfl
  · exact .inl rfl
  · exact .inr (ho hs)
  · exact .inr (ht hs)

/-- Of two files under plain names in a folder and one that is deeper, the first is shown under its own name. -/
theorem display_plain {files : FileMap} {folder name other deeper shown otherShown deeperShown : String}
    (hn : IsFileName name.toList) (ho : IsFileName other.toList) (hne : name ≠ other)
    (hp : files.Perm [(join folder name, shown), (join folder other, otherShown), (deeper, deeperShown)])
    (hd : (ofText folder).length + 1 < (ofText deeper).length) :
    files.display (join folder name) = shown ∧ files.display name = shown := by
  have hname := hn.ofText_join folder
  have hother := ho.ofText_join folder
  have hlonger : (ofText (join folder name)).length < (ofText deeper).length := by
    rwa [hname, List.length_append]
  have hends : ¬ [PathPart.name name.toList] <:+ ofText (join folder other) := by
    rw [hother]
    rintro ⟨front, h⟩
    exact hne (String.toList_inj.mp (PathPart.name.inj (List.singleton_inj.mp (List.append_inj' h rfl).2)))
  have hown : [PathPart.name name.toList] <:+ ofText (join folder name) := hname ▸ List.suffix_append _ _
  constructor
  · exact display_of_perm hp List.suffix_rfl (fun h => absurd (hown.trans h) hends) fun _ => hlonger
  · rw [← hn.ofText] at hown hends
    exact display_of_perm hp hown (fun h => absurd h hends) fun _ => hlonger

/-- Let a folder hold the support module's file under a plain name, the candidate's file in the source folder and the
root of the unit, and let the candidate's path end neither the path of the support module's file nor that of the root.
Then each of the three files is shown under its own name, whether it is reported by its whole path or by its path from
the folder, and the candidate's file also by its path from the source folder. -/
theorem display_own_file {files : FileMap} {folder support path supportShown shown rootShown : String}
    (hsupport : IsFileName support.toList) (hne : support ≠ "lib.rs")
    (hfiles : files.Perm [(join folder support, supportShown),
      (join (join folder "src") (UnitCompiler.placeOf path), shown), (join folder "lib.rs", rootShown)])
    (hs : ¬ (ofText (join folder support)).endsWith (ofText (UnitCompiler.placeOf path)))
    (hr : ¬ (ofText (join folder "lib.rs")).endsWith (ofText (UnitCompiler.placeOf path))) :
    (files.display (join folder support) = supportShown ∧ files.display support = supportShown) ∧
    (files.display (join (join folder "src") (UnitCompiler.placeOf path)) = shown ∧
      files.display (join "src" (UnitCompiler.placeOf path)) = shown ∧
      files.display (UnitCompiler.placeOf path) = shown) ∧
    files.display (join folder "lib.rs") = rootShown ∧ files.display "lib.rs" = rootShown := by
  have hdeeper :
      (ofText folder).length + 1 < (ofText (join (join folder "src") (UnitCompiler.placeOf path))).length := by
    rw [UnitCompiler.ofText_join_placeOf, List.length_append, List.length_cons, List.length_map]
    have := List.length_pos_iff.mpr (UnitCompiler.placeNames_ne_nil path)
    omega
  have hplace : ofText (UnitCompiler.placeOf path) <:+ ofText (join "src" (UnitCompiler.placeOf path)) := by
    rw [UnitCompiler.ofText_placeOf, UnitCompiler.ofText_join_src_placeOf]
    exact List.suffix_cons _ _
  have hsrc : ofText (join "src" (UnitCompiler.placeOf path)) <:+
      ofText (join (join folder "src") (UnitCompiler.placeOf path)) := by
    rw [UnitCompiler.ofText_join_src_placeOf, UnitCompiler.ofText_join_placeOf]
    exact List.suffix_append _ _
  rw [endsWith, List.isSuffixOf_iff_suffix] at hs hr
  -- what ends in the candidate's path ends neither of the other paths
  have hcandidate {reported : String} (hown : ofText reported <:+ _)
      (hp : ofText (UnitCompiler.placeOf path) <:+ ofText reported) : files.display reported = shown :=
    display_of_perm (hfiles.trans (.swap _ _ _)) hown (fun h => absurd (hp.trans h) hs) fun h => absurd (hp.trans h) hr
  refine ⟨?_, ⟨?_, ?_, ?_⟩, ?_⟩
  · exact display_plain hsupport UnitCompiler.isFileName_root hne (hfiles.trans (.cons _ (.swap _ _ _))) hdeeper
  · exact hcandidate List.suffix_rfl (hplace.trans hsrc)
  · exact hcandidate hsrc hplace
  · exact hcandidate (hplace.trans hsrc) List.suffix_rfl
  · exact display_plain UnitCompiler.isFileName_root hsupport hne.symm
      ((hfiles.trans (.cons _ (.swap _ _ _))).trans (.swap _ _ _)) hdeeper

/-- A candidate's file may be called like the root, deeper in the folder. -/
theorem display_own_file_named_root :
    let files : FileMap := [(join "/unit" "selfgen_rt.rs", "selfgen_rt.rs"),
      (join (join "/unit" "src") (UnitCompiler.placeOf "gen/lib.rs"), "gen/lib.rs"),
      (join "/unit" "lib.rs", UnitCompiler.generatedRoot)]
    files.display (UnitCompiler.placeOf "gen/lib.rs") = "gen/lib.rs" ∧
      files.display "lib.rs" = UnitCompiler.generatedRoot := by
  intro files
  obtain ⟨hs, hr⟩ : ¬ (ofText (join "/unit" "selfgen_rt.rs")).endsWith (ofText (UnitCompiler.placeOf "gen/lib.rs")) ∧
      ¬ (ofText (join "/unit" "lib.rs")).endsWith (ofText (UnitCompiler.placeOf "gen/lib.rs")) := by decide +kernel
  have hsupport : IsFileName "selfgen_rt.rs".toList := ⟨by decide, by decide, by decide⟩
  obtain ⟨-, ⟨-, -, hc⟩, -, hl⟩ := display_own_file hsupport (by decide) (.refl files) hs hr
  exact ⟨hc, hl⟩

end FileMap
end GeneratorHost
