import Mathlib.Data.List.Basic
import GeneratorHost.Proofs.Unit.Root

/-! The files of a module. The layout of a host is turned around: a module has one file in a folder of its own and, by
its name, one beside that folder, the crate has three, and no other path has a module. -/
namespace GeneratorHost.Layout
open FilePath

variable {path : FilePath} {module : String}

/-! ### Names of source files -/

theorem exists_of_takeWhile {p : Char → Bool} {cs front : List Char} (h : cs.takeWhile p = front)
    (hl : front.length < cs.length) : ∃ c rest, cs = front ++ c :: rest ∧ p c = false := by
  have hcs := List.takeWhile_append_dropWhile (p := p) (l := cs)
  rw [h] at hcs
  cases hd : cs.dropWhile p with
  | nil =>
    rw [hd, List.append_nil] at hcs
    rw [hcs] at hl
    exact absurd hl (Nat.lt_irrefl _)
  | cons c rest =>
    have hc := List.head_dropWhile_not (p := p) (l := cs) (by rw [hd]; exact List.cons_ne_nil c rest)
    simp only [hd, List.head_cons] at hc
    exact ⟨c, rest, by rw [← hd, hcs], hc⟩

theorem extension?_eq_rs_iff (name : List Char) :
    extension? name = some ['r', 's'] ↔ ∃ stem, stem ≠ [] ∧ name = stem ++ ".rs".toList := by
  have hdot : ".rs".toList = ['.', 'r', 's'] := rfl
  rw [hdot]
  unfold extension?
  rw [Option.ite_none_right_eq_some, Option.some.injEq, List.reverse_eq_iff, List.length_reverse]
  constructor
  · rintro ⟨hl, he⟩
    have hlt : ['r', 's'].reverse.length < name.reverse.length := by
      rw [← he, List.length_reverse]
      exact Nat.lt_of_succ_lt hl
    obtain ⟨c, behind, hb, hc⟩ := exists_of_takeWhile he hlt
    obtain rfl : c = '.' := by simpa using hc
    rw [List.reverse_eq_iff] at hb
    have hn : name = behind.reverse ++ ['.', 'r', 's'] := by simpa using hb
    refine ⟨behind.reverse, fun hnil => ?_, hn⟩
    rw [he, hn, hnil] at hl
    exact absurd hl (by decide)
  · rintro ⟨stem, hs, rfl⟩
    have hr : (stem ++ ['.', 'r', 's']).reverse.takeWhile (· ≠ '.') = ['s', 'r'] := by simp
    have hpos := List.length_pos_iff.mpr hs
    rw [hr, List.length_append]
    exact ⟨Nat.lt_add_of_pos_left hpos, rfl⟩

/-! ### Paths of modules -/

theorem eq_name_of_isModuleName {part : PathPart} (h : isModuleName part.chars) : part = .name part.chars := by
  cases part with
  | name => rfl
  | _ => exact absurd h (by decide)

/-- A path in folders from the top, all by their names. -/
def fileIn (folders : List (List Char)) (file : List Char) : FilePath := folders.map .name ++ [.name file]

/-- Whether a file gives its module no name. -/
def Nameless (folders : List (List Char)) (stem : List Char) : Prop :=
  stem = "mod".toList ∨ folders = [] ∧ (stem = "lib".toList ∨ stem = "main".toList)

instance (folders : List (List Char)) (stem : List Char) : Decidable (Nameless folders stem) :=
  inferInstanceAs (Decidable (_ ∨ _ ∧ (_ ∨ _)))

theorem moduleNames_eq (folders : List (List Char)) (stem : List Char) :
    (Nameless folders stem → moduleNames folders stem = folders) ∧
    (¬ Nameless folders stem → moduleNames folders stem = folders ++ [stem]) := by
  unfold moduleNames Nameless
  simp only [Bool.or_eq_true, Bool.and_eq_true, List.isEmpty_iff, decide_eq_true_iff]
  exact ⟨fun h => if_pos h, fun h => if_neg h⟩

theorem folders_subset_moduleNames (folders : List (List Char)) (stem : List Char) :
    folders ⊆ moduleNames folders stem := by
  unfold moduleNames
  split
  · exact List.Subset.refl _
  · exact List.subset_append_left _ _

/-- A path has a module if its last part is a source file's name and all parts that name the module can. -/
theorem moduleOf?_eq_some_iff : moduleOf? path = some module ↔ ∃ folders stem, stem ≠ [] ∧
    path = fileIn folders (stem ++ ".rs".toList) ∧ (∀ cs ∈ moduleNames folders stem, isModuleName cs) ∧
    module = scopePath ((moduleNames folders stem).map String.ofList) := by
  constructor
  · intro h
    unfold moduleOf? at h
    split at h
    · rename_i name hl
      rw [Option.ite_none_right_eq_some] at h
      obtain ⟨he, h⟩ := h
      obtain ⟨stem, hs, rfl⟩ := (extension?_eq_rs_iff name).mp he
      have ht : (stem ++ ".rs".toList).take ((stem ++ ".rs".toList).length - 3) = stem := by
        rw [List.length_append]
        exact List.take_left
      rw [ht, Option.ite_none_right_eq_some, List.all_eq_true, Option.some.injEq, intercalate_eq_scopePath] at h
      obtain ⟨hn, hm⟩ := h
      refine ⟨path.dropLast.map PathPart.chars, stem, hs, ?_, hn, hm.symm⟩
      obtain ⟨before, rfl⟩ := List.getLast?_eq_some_iff.mp hl
      rw [List.dropLast_concat] at hn ⊢
      rw [fileIn, List.map_map]
      congr 1
      refine (List.map_id before).symm.trans (List.map_congr_left fun part hp => ?_)
      exact eq_name_of_isModuleName (hn _ (folders_subset_moduleNames _ _ (List.mem_map_of_mem hp)))
    · cases h
  · rintro ⟨folders, stem, hs, rfl, hn, rfl⟩
    have he := (extension?_eq_rs_iff _).mpr ⟨stem, hs, rfl⟩
    have hc : (fileIn folders (stem ++ ".rs".toList)).dropLast.map PathPart.chars = folders := by
      rw [fileIn, List.dropLast_concat, List.map_map]
      exact List.map_id folders
    have ht : (stem ++ ".rs".toList).take ((stem ++ ".rs".toList).length - 3) = stem := by
      rw [List.length_append]
      exact List.take_left
    have hall : (moduleNames folders stem).all isModuleName := List.all_eq_true.mpr hn
    unfold moduleOf?
    rw [hc, fileIn, List.getLast?_concat]
    dsimp only
    rw [if_pos he, ht, if_pos hall, intercalate_eq_scopePath]

theorem scopePath_inj {names names' : List String} (h : ∀ n ∈ names, ':' ∉ n.toList) (h' : ∀ n ∈ names', ':' ∉ n.toList) :
    scopePath names = scopePath names' ↔ names = names' := by
  refine ⟨fun he => ?_, congrArg scopePath⟩
  have hs := splitColons_scopePath h
  rw [he, splitColons_scopePath h'] at hs
  exact (List.cons.inj hs).2.symm

/-! ### Files of modules -/

theorem moduleOf?_eq_scopePath_iff {names : List (List Char)} (h : ∀ cs ∈ names, isModuleName cs) :
    moduleOf? path = some (scopePath (names.map String.ofList)) ↔ ∃ folders stem, stem ≠ [] ∧
      path = fileIn folders (stem ++ ".rs".toList) ∧ moduleNames folders stem = names := by
  have hcolon {names : List (List Char)} (h : ∀ cs ∈ names, isModuleName cs) :
      ∀ n ∈ names.map String.ofList, ':' ∉ n.toList := by
    rw [List.forall_mem_map]
    intro cs hm
    rw [String.toList_ofList]
    exact colon_not_mem_of_isModuleName (h cs hm)
  have hinj : Function.Injective (List.map String.ofList) :=
    List.map_injective_iff.mpr fun _ _ he => String.ofList_injective he
  rw [moduleOf?_eq_some_iff]
  refine exists_congr fun folders => exists_congr fun stem => and_congr_right fun _ => and_congr_right fun _ => ?_
  constructor
  · rintro ⟨hn, he⟩
    rw [scopePath_inj (hcolon h) (hcolon hn)] at he
    exact (hinj he).symm
  · rintro rfl
    exact ⟨h, rfl⟩

/-- The crate is in one of three files. -/
theorem moduleOf?_eq_crate_iff : moduleOf? path = some "crate" ↔
    path = fileIn [] "lib.rs".toList ∨ path = fileIn [] "main.rs".toList ∨ path = fileIn [] "mod.rs".toList := by
  have h : moduleOf? path = some (scopePath (([] : List (List Char)).map String.ofList)) ↔ _ :=
    moduleOf?_eq_scopePath_iff (List.forall_mem_nil fun cs => isModuleName cs)
  rw [List.map_nil] at h
  refine h.trans ⟨?_, ?_⟩
  · rintro ⟨folders, stem, -, rfl, hm⟩
    have hn : Nameless folders stem := by
      by_contra hn
      rw [(moduleNames_eq folders stem).2 hn] at hm
      exact absurd hm (by simp)
    rw [(moduleNames_eq folders stem).1 hn] at hm
    subst hm
    rcases hn with rfl | ⟨-, rfl | rfl⟩
    · exact .inr (.inr rfl)
    · exact .inl rfl
    · exact .inr (.inl rfl)
  · rintro (rfl | rfl | rfl)
    · exact ⟨[], "lib".toList, by decide, rfl, by decide⟩
    · exact ⟨[], "main".toList, by decide, rfl, by decide⟩
    · exact ⟨[], "mod".toList, by decide, rfl, by decide⟩

/-- Any other module is in a folder of its name, or in a file of its name where that is not a nameless one. -/
theorem moduleOf?_eq_concat_iff {folders : List (List Char)} {name : List Char}
    (h : ∀ cs ∈ folders ++ [name], isModuleName cs) :
    moduleOf? path = some (scopePath ((folders ++ [name]).map String.ofList)) ↔
      path = fileIn (folders ++ [name]) "mod.rs".toList ∨
      ¬ Nameless folders name ∧ path = fileIn folders (name ++ ".rs".toList) := by
  rw [moduleOf?_eq_scopePath_iff h]
  constructor
  · rintro ⟨folders', stem, -, rfl, hm⟩
    by_cases hn : Nameless folders' stem
    · rw [(moduleNames_eq folders' stem).1 hn] at hm
      subst hm
      rcases hn with rfl | ⟨hnil, -⟩
      · exact .inl rfl
      · exact absurd hnil (by simp)
    · rw [(moduleNames_eq folders' stem).2 hn] at hm
      obtain ⟨rfl, he⟩ := List.append_inj' hm rfl
      obtain rfl := List.singleton_inj.mp he
      exact .inr ⟨hn, rfl⟩
  · rintro (rfl | ⟨hn, rfl⟩)
    · exact ⟨folders ++ [name], "mod".toList, by decide, rfl, (moduleNames_eq _ _).1 (.inl rfl)⟩
    · refine ⟨folders, name, ?_, rfl, (moduleNames_eq _ _).2 hn⟩
      rintro rfl
      exact absurd (h [] (by simp)) (by decide)

/-- The layout turned around, for every path. The crate is in `lib.rs`, `main.rs` or `mod.rs`. The module that names
lead to is in the `mod.rs` of its folder or, unless the last name is one that a file gives no module, in the file of
that name beside the folder. Every other path has no module. -/
theorem files_of_module (path : FilePath) :
    (moduleOf? path = some "crate" ↔
      path = fileIn [] "lib.rs".toList ∨ path = fileIn [] "main.rs".toList ∨ path = fileIn [] "mod.rs".toList) ∧
    (∀ folders name, (∀ cs ∈ folders ++ [name], isModuleName cs) →
      (moduleOf? path = some (scopePath ((folders ++ [name]).map String.ofList)) ↔
        path = fileIn (folders ++ [name]) "mod.rs".toList ∨
        ¬ Nameless folders name ∧ path = fileIn folders (name ++ ".rs".toList))) ∧
    (moduleOf? path = none ↔
      ¬ (path = fileIn [] "lib.rs".toList ∨ path = fileIn [] "main.rs".toList ∨ path = fileIn [] "mod.rs".toList) ∧
      ∀ folders name, (∀ cs ∈ folders ++ [name], isModuleName cs) →
        ¬ (path = fileIn (folders ++ [name]) "mod.rs".toList ∨
          ¬ Nameless folders name ∧ path = fileIn folders (name ++ ".rs".toList))) := by
  refine ⟨moduleOf?_eq_crate_iff, fun _ _ => moduleOf?_eq_concat_iff, ?_⟩
  rw [← moduleOf?_eq_crate_iff]
  constructor
  · intro hnone
    refine ⟨by simp [hnone], fun folders name hn => ?_⟩
    rw [← moduleOf?_eq_concat_iff hn, hnone]
    exact (Option.some_ne_none _).symm
  · rintro ⟨hcrate, hnamed⟩
    rw [Option.eq_none_iff_forall_ne_some]
    intro module hm
    obtain ⟨folders, stem, -, -, hn, rfl⟩ := moduleOf?_eq_some_iff.mp hm
    rcases List.eq_nil_or_concat' (moduleNames folders stem) with he | ⟨before, last, he⟩
    · rw [he] at hm
      exact hcrate hm
    · rw [he] at hm hn
      exact hnamed before last hn ((moduleOf?_eq_concat_iff hn).mp hm)

/-- A module `gen::lib` has both files, a module `lib` of the crate only the one in its folder. -/
theorem files_of_module_lib :
    moduleOf? (.ofText "gen/lib.rs") = some "crate::gen::lib" ∧ moduleOf? (.ofText "gen/lib/mod.rs") = some "crate::gen::lib" ∧
    moduleOf? (.ofText "lib/mod.rs") = some "crate::lib" ∧ ¬ moduleOf? (.ofText "lib.rs") = some "crate::lib" := by
  have hg : ∀ cs ∈ ["gen".toList] ++ ["lib".toList], isModuleName cs := by decide
  have hl : ∀ cs ∈ [] ++ ["lib".toList], isModuleName cs := by decide
  refine ⟨?_, ?_, ?_, ?_⟩
  · exact ((files_of_module _).2.1 _ _ hg).mpr (.inr ⟨by decide, by decide⟩)
  · exact ((files_of_module _).2.1 _ _ hg).mpr (.inl (by decide))
  · exact ((files_of_module _).2.1 _ _ hl).mpr (.inl (by decide))
  · exact fun h => absurd (((files_of_module _).2.1 _ _ hl).mp h) (by decide)

end GeneratorHost.Layout
