import GeneratorHost.Host.Discovery
import GeneratorHost.Proofs.Host.Walk
import GeneratorHost.Proofs.Text.Lossy

/-! What is found in a folder. Of the files of each module the first one is mounted, so no module is mounted twice and
none is lost. The first of these that cannot be read is an error, and a source file that is passed over is spoken of. -/
namespace GeneratorHost

namespace Layout

theorem isSource_of_moduleOf? {path : FilePath} {module : String} (h : moduleOf? path = some module) : isSource path := by
  unfold moduleOf? at h
  unfold isSource
  split at h
  · exact decide_eq_true (Option.ite_none_right_eq_some.mp h).1
  · cases h

end Layout

namespace HostCompilation

theorem isSome_treeAt?_iff {c : HostCompilation} {module : String} :
    (c.treeAt? module).isSome ↔ ∃ tree ∈ c.trees, tree.module = module := by
  simp [treeAt?]

end HostCompilation

namespace Discovery
open Layout

/-- A file under a folder, by its path from there. -/
abbrev Entry := FilePath × DiskFile

variable {root : String} {edition : Edition} {before files : List Entry} {entry : Entry} {module : String} {d : Discovery}

/-! ### Files that are mounted -/

/-- Whether a file has a module path that no earlier one has. -/
def Chosen (before : List Entry) (entry : Entry) : Prop :=
  (moduleOf? entry.1).isSome ∧ ∀ earlier ∈ before, moduleOf? earlier.1 ≠ moduleOf? entry.1

instance (before : List Entry) (entry : Entry) : Decidable (Chosen before entry) := inferInstanceAs (Decidable (_ ∧ _))

/-- The files that are mounted where some others came before, in order. -/
def chosenAfter (before : List Entry) : List Entry → List Entry
  | [] => []
  | entry :: files =>
    if Chosen before entry then entry :: chosenAfter (before ++ [entry]) files else chosenAfter (before ++ [entry]) files

def chosen (files : List Entry) : List Entry := chosenAfter [] files

/-- The source files that are passed over where some others came before, in order. -/
def skippedAfter (before : List Entry) : List Entry → List Entry
  | [] => []
  | entry :: files =>
    if isSource entry.1 ∧ ¬ Chosen before entry then entry :: skippedAfter (before ++ [entry]) files
    else skippedAfter (before ++ [entry]) files

def skipped (files : List Entry) : List Entry := skippedAfter [] files

theorem chosen_of_mem_chosenAfter (h : entry ∈ chosenAfter before files) : Chosen before entry := by
  induction files generalizing before with
  | nil => cases h
  | cons file files ih =>
    have hlater (h : entry ∈ chosenAfter (before ++ [file]) files) : Chosen before entry :=
      (ih h).imp_right fun hb earlier he => hb earlier (List.mem_append_left _ he)
    rw [chosenAfter] at h
    split at h
    · rename_i hc
      rcases List.mem_cons.mp h with rfl | h
      · exact hc
      · exact hlater h
    · exact hlater h

/-- No two files that are mounted have one module path. -/
theorem pairwise_chosenAfter (before files : List Entry) :
    (chosenAfter before files).Pairwise fun a b => moduleOf? a.1 ≠ moduleOf? b.1 := by
  induction files generalizing before with
  | nil => exact .nil
  | cons file files ih =>
    rw [chosenAfter]
    split
    · exact .cons (fun later hl => (chosen_of_mem_chosenAfter hl).2 file (List.mem_append_right _ (List.mem_singleton_self _)))
        (ih _)
    · exact ih _

/-- The module of a file is that of an earlier one or of one that is mounted. -/
theorem exists_mem_chosenAfter (h : entry ∈ files) (hm : moduleOf? entry.1 = some module) :
    (∃ earlier ∈ before, moduleOf? earlier.1 = some module) ∨
      ∃ file ∈ chosenAfter before files, moduleOf? file.1 = some module := by
  induction files generalizing before with
  | nil => cases h
  | cons file files ih =>
    by_cases hb : ∃ earlier ∈ before, moduleOf? earlier.1 = some module
    · exact .inl hb
    right
    rw [chosenAfter]
    by_cases hf : moduleOf? file.1 = some module
    · have hc : Chosen before file := ⟨by rw [hf]; rfl, fun earlier he heq => hb ⟨earlier, he, heq.trans hf⟩⟩
      rw [if_pos hc]
      exact ⟨file, List.mem_cons_self, hf⟩
    · have hlater : ∃ later ∈ chosenAfter (before ++ [file]) files, moduleOf? later.1 = some module := by
        refine (ih ((List.mem_cons.mp h).resolve_left ?_)).resolve_left ?_
        · rintro rfl
          exact hf hm
        · rintro ⟨earlier, he, heq⟩
          rcases List.mem_append.mp he with he | he
          · exact hb ⟨earlier, he, heq⟩
          · obtain rfl := List.mem_singleton.mp he
            exact hf heq
      split
      · exact hlater.imp fun later hl => hl.imp_left (List.mem_cons_of_mem _)
      · exact hlater

/-- What is chosen and what is skipped depends on paths alone. -/
theorem map_chosenAfter_congr {before' files' : List Entry} (hb : before'.map Prod.fst = before.map Prod.fst)
    (h : files'.map Prod.fst = files.map Prod.fst) :
    (chosenAfter before' files').map Prod.fst = (chosenAfter before files).map Prod.fst ∧
    (skippedAfter before' files').map Prod.fst = (skippedAfter before files).map Prod.fst := by
  induction files generalizing before before' files' with
  | nil =>
    rw [List.map_eq_nil_iff.mp h]
    exact ⟨rfl, rfl⟩
  | cons file files ih =>
    cases files' with
    | nil => cases h
    | cons file' files' =>
      obtain ⟨hf, hfs⟩ := List.cons.inj h
      have hc : Chosen before' file' ↔ Chosen before file := by
        have hall (l : List Entry) (m : Option String) :
            (∀ earlier ∈ l, moduleOf? earlier.1 ≠ m) ↔ ∀ path ∈ l.map Prod.fst, moduleOf? path ≠ m := by
          rw [List.forall_mem_map]
        rw [Chosen, Chosen, hall, hall, hb, hf]
      have hbf : (before' ++ [file']).map Prod.fst = (before ++ [file]).map Prod.fst := by
        rw [List.map_append, List.map_append, hb, List.map_singleton, List.map_singleton, hf]
      obtain ⟨hcs, hss⟩ := ih hbf hfs
      simp only [chosenAfter, skippedAfter, hc, hf]
      constructor
      · split
        · rw [List.map_cons, List.map_cons, hcs, hf]
        · exact hcs
      · split
        · rw [List.map_cons, List.map_cons, hss, hf]
        · exact hss

theorem map_chosen_congr {files' : List Entry} (h : files'.map Prod.fst = files.map Prod.fst) :
    (chosen files').map Prod.fst = (chosen files).map Prod.fst ∧
    (skipped files').map Prod.fst = (skipped files).map Prod.fst :=
  map_chosenAfter_congr rfl h

/-! ### One file -/

/-- What is said about a source file that is passed over. -/
def reason (path : FilePath) : String :=
  (moduleOf? path).elim ("skipping " ++ pathText path ++ ": not a module path") fun module =>
    "skipping " ++ pathText path ++ ": " ++ module ++ " is already mounted"

/-- The tree of a file that is mounted. -/
def mount (root : String) (edition : Edition) (entry : Entry) : Except SourceError SourceTree :=
  ((readText entry.2).mapError (SourceError.read (FilePath.join root (pathText entry.1)))).map
    (treeOf edition entry.1 ((moduleOf? entry.1).getD ""))

/-- Whether exactly the modules of some files are mounted. -/
def Mounts (before : List Entry) (d : Discovery) : Prop :=
  ∀ module, (d.compilation.treeAt? module).isSome ↔ ∃ entry ∈ before, moduleOf? entry.1 = some module

theorem Mounts.chosen_iff (h : Mounts before d) (hm : moduleOf? entry.1 = some module) :
    Chosen before entry ↔ (d.compilation.treeAt? module).isSome = false := by
  rw [← Bool.not_eq_true, h module, Chosen, hm]
  simp

/-- A file that is chosen is mounted, if it can be read. -/
theorem add_of_chosen (h : Mounts before d) (hc : Chosen before entry) :
    add root d entry = (mount root d.compilation.edition entry).map fun tree =>
      { d with compilation := ⟨d.compilation.trees ++ [tree], d.compilation.edition⟩ } := by
  obtain ⟨module, hm⟩ := Option.isSome_iff_exists.mp hc.1
  unfold add
  dsimp only
  rw [hm]
  dsimp only
  rw [(h.chosen_iff hm).mp hc, if_neg Bool.false_ne_true]
  unfold mount
  cases readText entry.2 with
  | error source => rfl
  | ok text => rw [hm]; rfl

/-- A file that is not chosen changes nothing; there is a word about a source file. -/
theorem add_of_not_chosen (h : Mounts before d) (hc : ¬ Chosen before entry) :
    add root d entry = .ok (if isSource entry.1 then d.warn (reason entry.1) else d) := by
  unfold add reason
  dsimp only
  cases hm : moduleOf? entry.1 with
  | none =>
    dsimp only
    split <;> rfl
  | some module =>
    have hs := Bool.eq_true_of_not_eq_false (mt (h.chosen_iff hm).mpr hc)
    dsimp only
    rw [if_pos hs, if_pos (isSource_of_moduleOf? hm)]
    rfl

/-! ### All files -/

theorem mounts_nil (edition : Edition) : Mounts [] { compilation := ⟨[], edition⟩ } := by
  intro module
  simp [HostCompilation.treeAt?]

theorem Mounts.mount (h : Mounts before d) (hc : Chosen before entry) {tree : SourceTree}
    (ht : Discovery.mount root edition entry = .ok tree) :
    Mounts (before ++ [entry]) { d with compilation := ⟨d.compilation.trees ++ [tree], edition⟩ } := by
  obtain ⟨module, hm⟩ := Option.isSome_iff_exists.mp hc.1
  have hmodule : tree.module = module := by
    unfold Discovery.mount at ht
    rw [hm] at ht
    cases hr : readText entry.2 with
    | error source =>
      rw [hr] at ht
      cases ht
    | ok text =>
      rw [hr] at ht
      cases ht
      rfl
  intro other
  have ho := h other
  rw [HostCompilation.isSome_treeAt?_iff] at ho ⊢
  simp only [List.mem_append, or_and_right, exists_or, List.mem_singleton, exists_eq_left, ho, hmodule, hm,
    Option.some.injEq]

theorem Mounts.skip (h : Mounts before d) (hc : ¬ Chosen before entry) : Mounts (before ++ [entry]) d := by
  intro other
  rw [h other]
  simp only [List.mem_append, or_and_right, exists_or, List.mem_singleton, exists_eq_left]
  refine (or_iff_left_of_imp fun ho => ?_).symm
  have hs := Bool.eq_true_of_not_eq_false (mt (h.chosen_iff ho).mpr hc)
  exact (h other).mp hs

/-- Files in order are those that are chosen, mounted, and a word about each source file that is not. -/
theorem foldlM_add (h : Mounts before d) (he : d.compilation.edition = edition) :
    files.foldlM (add root) d = ((chosenAfter before files).mapM (mount root edition)).map fun trees =>
      ⟨⟨d.compilation.trees ++ trees, edition⟩, d.warnings ++ (skippedAfter before files).map (reason ·.1)⟩ := by
  subst he
  induction files generalizing before d with
  | nil => simp [chosenAfter, skippedAfter, Except.map, pure, Except.pure]
  | cons file files ih =>
    rw [List.foldlM_cons, chosenAfter, skippedAfter]
    by_cases hc : Chosen before file
    · rw [add_of_chosen h hc, if_pos hc, if_neg fun hs => hs.2 hc, List.mapM_cons]
      cases ht : mount root d.compilation.edition file with
      | error source => rfl
      | ok tree =>
        refine (ih (h.mount hc ht)).trans ?_
        cases (chosenAfter (before ++ [file]) files).mapM (mount root d.compilation.edition) with
        | error source => rfl
        | ok trees =>
          dsimp only [Except.map, bind, Except.bind, pure, Except.pure]
          rw [List.append_assoc, List.singleton_append]
    · rw [add_of_not_chosen h hc, if_neg hc]
      split
      · rename_i hs
        have hm : Mounts (before ++ [file]) (d.warn (reason file.1)) := h.skip hc
        rw [if_pos ⟨hs, hc⟩, List.map_cons, List.append_cons]
        exact ih hm
      · rename_i hs
        rw [if_neg fun h => hs h.1]
        exact ih (h.skip hc)

/-- What is found is what is chosen, and said about what is skipped. -/
theorem ofFiles_eq (root : String) (edition : Edition) (files : List Entry) :
    ofFiles root edition files = ((chosen files).mapM (mount root edition)).map fun trees =>
      ⟨⟨trees, edition⟩, (skipped files).map (reason ·.1)⟩ := by
  refine (foldlM_add (mounts_nil edition) rfl).trans ?_
  rfl

/-! ### Reading -/

/-- Whether a file can be read, and as text. -/
def Readable (file : DiskFile) : Prop := ∃ text, file.content = .ok (Text.bytes text)

theorem readText_eq_ok_iff {file : DiskFile} {text : String} :
    readText file = .ok text ↔ file.content = .ok (Text.bytes text) := by
  unfold readText
  cases file.content with
  | error source =>
    constructor
    all_goals intro h; cases h
  | ok bytes =>
    dsimp only [bind, Except.bind]
    rw [Except.ok.injEq, ← Text.ofBytes?_eq_some_iff]
    cases Text.ofBytes? bytes with
    | none =>
      constructor
      all_goals intro h; cases h
    | some read => simp [pure, Except.pure]

/-- A tree is that of a file: it has its module path and its text. -/
structure IsTreeOf (edition : Edition) (entry : Entry) (tree : SourceTree) : Prop where
  module : moduleOf? entry.1 = some tree.module
  text : entry.2.content = .ok (Text.bytes tree.text)
  path : tree.path = shownPath entry.1
  edition : tree.edition = edition

theorem exists_mount_of_readable (hm : (moduleOf? entry.1).isSome) (h : Readable entry.2) :
    ∃ tree, mount root edition entry = .ok tree ∧ IsTreeOf edition entry tree := by
  obtain ⟨text, ht⟩ := h
  obtain ⟨module, hm⟩ := Option.isSome_iff_exists.mp hm
  unfold mount
  rw [readText_eq_ok_iff.mpr ht, hm]
  exact ⟨_, rfl, hm, ht, rfl, rfl⟩

theorem exists_mapM_mount (hm : ∀ entry ∈ files, (moduleOf? entry.1).isSome) (h : ∀ entry ∈ files, Readable entry.2) :
    ∃ trees, files.mapM (mount root edition) = .ok trees ∧ List.Forall₂ (IsTreeOf edition) files trees := by
  induction files with
  | nil => exact ⟨[], rfl, .nil⟩
  | cons file files ih =>
    rw [List.forall_mem_cons] at hm h
    obtain ⟨tree, ht, hf⟩ := exists_mount_of_readable hm.1 h.1
    obtain ⟨trees, hts, hfs⟩ := ih hm.2 h.2
    refine ⟨tree :: trees, ?_, .cons hf hfs⟩
    rw [List.mapM_cons, ht, hts]
    rfl

/-- The first file that cannot be read decides. -/
theorem mapM_mount_of_not_readable {front behind : List Entry} {source : String}
    (hm : ∀ entry ∈ front, (moduleOf? entry.1).isSome) (h : ∀ entry ∈ front, Readable entry.2)
    (hs : readText entry.2 = .error source) : (front ++ entry :: behind).mapM (mount root edition) =
      .error (.read (FilePath.join root (pathText entry.1)) source) := by
  obtain ⟨trees, ht, -⟩ : ∃ trees, front.mapM (mount root edition) = .ok trees ∧ _ := exists_mapM_mount hm h
  rw [List.mapM_append, ht, List.mapM_cons, mount, hs]
  rfl

/-- What is mounted depends on paths and contents. -/
theorem mapM_mount_congr {files' : List Entry} (hp : files'.map Prod.fst = files.map Prod.fst)
    (hc : files'.map (·.2.content) = files.map (·.2.content)) :
    files'.mapM (mount root edition) = files.mapM (mount root edition) := by
  induction files generalizing files' with
  | nil => rw [List.map_eq_nil_iff.mp hp]
  | cons file files ih =>
    cases files' with
    | nil => cases hp
    | cons file' files' =>
      obtain ⟨hp, hps⟩ := List.cons.inj hp
      obtain ⟨hc, hcs⟩ := List.cons.inj hc
      have hm : mount root edition file' = mount root edition file := by
        have hc : file'.2.content = file.2.content := hc
        unfold mount readText
        rw [hp, hc]
      rw [List.mapM_cons, List.mapM_cons, hm, ih hps hcs]

/-! ### Folders -/

theorem isSome_of_mem_chosen (h : entry ∈ chosen files) : (moduleOf? entry.1).isSome := (chosen_of_mem_chosenAfter h).1

theorem forall₂_modules {chosen : List Entry} {trees : List SourceTree} (h : List.Forall₂ (IsTreeOf edition) chosen trees) :
    trees.map (some ·.module) = chosen.map (moduleOf? ·.1) := by
  induction h with
  | nil => rfl
  | cons h _ ih => rw [List.map_cons, List.map_cons, ih, h.module]

variable {disk : Disk} {place : FilePath} {t : FolderTree}

theorem ofFolder_eq (hr : disk.find root = .ok (place, .folder)) (ht : t.Ordered) (h : disk.HasTree place t) :
    ofFolder disk root edition = ((chosen t.walk).mapM (mount root edition)).map fun trees =>
      ⟨⟨trees, edition⟩, (skipped t.walk).map (reason ·.1)⟩ := by
  unfold ofFolder
  rw [hr]
  dsimp only
  rw [h.filesUnder_eq ht, ofFiles_eq]

/-- What is found in a folder. The first chosen file that is not readable is the error. If all are readable, the trees are
those of the chosen files in the order of the walk: no two have one module, and the module of every file is there. The
warnings are about the source files that are not chosen, one about each. Of a file that is not chosen only the path
matters. -/
theorem ofFolder_mounts (hr : disk.find root = .ok (place, .folder)) (ht : t.Ordered) (h : disk.HasTree place t) :
    (∀ front entry behind, chosen t.walk = front ++ entry :: behind → (∀ earlier ∈ front, Readable earlier.2) →
      ¬ Readable entry.2 → ∃ source, readText entry.2 = .error source ∧
        ofFolder disk root edition = .error (.read (FilePath.join root (pathText entry.1)) source)) ∧
    ((∀ entry ∈ chosen t.walk, Readable entry.2) → ∃ found, ofFolder disk root edition = .ok found ∧
      List.Forall₂ (IsTreeOf edition) (chosen t.walk) found.compilation.trees ∧
      (found.compilation.trees.map (·.module)).Nodup ∧
      (∀ entry ∈ t.walk, ∀ module, moduleOf? entry.1 = some module → (found.compilation.treeAt? module).isSome) ∧
      found.warnings = (skipped t.walk).map (reason ·.1)) ∧
    ∀ disk' place' t', disk'.find root = .ok (place', .folder) → t'.Ordered → disk'.HasTree place' t' →
      t'.walk.map Prod.fst = t.walk.map Prod.fst →
      (chosen t'.walk).map (·.2.content) = (chosen t.walk).map (·.2.content) →
      ofFolder disk' root edition = ofFolder disk root edition := by
  have hm : ∀ entry ∈ chosen t.walk, (moduleOf? entry.1).isSome := fun _ => isSome_of_mem_chosen
  refine ⟨fun front entry behind he hf hn => ?_, fun hread => ?_, fun disk' place' t' hr' ht' h' hp hc => ?_⟩
  · cases hs : readText entry.2 with
    | ok text => exact absurd ⟨text, readText_eq_ok_iff.mp hs⟩ hn
    | error source =>
      refine ⟨source, rfl, ?_⟩
      have hfront : ∀ earlier ∈ front, (moduleOf? earlier.1).isSome :=
        fun earlier hmem => hm earlier (he ▸ List.mem_append_left _ hmem)
      rw [ofFolder_eq hr ht h, he, mapM_mount_of_not_readable hfront hf hs]
      rfl
  · obtain ⟨trees, hts, hfs⟩ : ∃ trees, (chosen t.walk).mapM (mount root edition) = .ok trees ∧ _ :=
      exists_mapM_mount hm hread
    refine ⟨⟨⟨trees, edition⟩, (skipped t.walk).map (reason ·.1)⟩, ?_, hfs, ?_, fun entry hmem module hmod => ?_, rfl⟩
    · rw [ofFolder_eq hr ht h, hts]
      rfl
    · have hn : ((chosen t.walk).map (moduleOf? ·.1)).Nodup := List.pairwise_map.mpr (pairwise_chosenAfter [] t.walk)
      rw [← forall₂_modules hfs] at hn
      exact List.Nodup.of_map some (by rwa [List.map_map])
    · have hnone : ¬ ∃ earlier ∈ ([] : List Entry), moduleOf? earlier.1 = some module := by simp
      obtain ⟨file, hfile, heq⟩ := (exists_mem_chosenAfter hmem hmod).resolve_left hnone
      have hin : some module ∈ trees.map (some ·.module) := by
        rw [forall₂_modules hfs]
        exact List.mem_map.mpr ⟨file, hfile, heq⟩
      obtain ⟨tree, htree, heq⟩ := List.mem_map.mp hin
      exact HostCompilation.isSome_treeAt?_iff.mpr ⟨tree, htree, Option.some.inj heq⟩
  · obtain ⟨hcs, hss⟩ := map_chosen_congr hp
    have hreasons : (skipped t'.walk).map (reason ·.1) = (skipped t.walk).map (reason ·.1) := by
      have hmap (l : List Entry) : l.map (reason ·.1) = (l.map Prod.fst).map reason := by
        rw [List.map_map]
        rfl
      rw [hmap, hmap]
      exact congrArg _ hss
    rw [ofFolder_eq hr ht h, ofFolder_eq hr' ht' h', mapM_mount_congr hcs hc, hreasons]

/-! A module with two files, and files that cannot be read. -/

def sampleTree : FolderTree :=
  .folder "a".toList (.file "mod.rs".toList { content := .ok (Text.bytes "") } .nil)
    (.file "a.rs".toList { content := .error "Permission denied (os error 13)" }
      (.file "notes.txt".toList { content := .ok [0xff] }
        (.file "x-y.rs".toList { content := .ok [0xff] } .nil)))

def sampleDisk : Disk := { files := sampleTree.walk.map fun entry => ([.name "src".toList] ++ entry.1, entry.2) }

theorem ofFolder_mounts_sample :
    (sampleDisk.find "src" = .ok ([.name "src".toList], .folder) ∧ sampleTree.Ordered ∧
      sampleDisk.HasTree [.name "src".toList] sampleTree) ∧
    ∃ found, ofFolder sampleDisk "src" .e2021 = .ok found ∧
      List.Forall₂ (IsTreeOf .e2021) (chosen sampleTree.walk) found.compilation.trees ∧
      found.warnings = ["skipping a.rs: crate::a is already mounted", "skipping x-y.rs: not a module path"] := by
  have hr : sampleDisk.find "src" = .ok ([.name "src".toList], .folder) := rfl
  have ht : sampleTree.Ordered := by
    simp only [sampleTree, FolderTree.Ordered, FolderTree.names]
    decide
  have h : sampleDisk.HasTree [.name "src".toList] sampleTree := ⟨[], by rw [List.append_nil]; exact .refl _, by simp⟩
  have hc : chosen sampleTree.walk =
      [([.name "a".toList, .name "mod.rs".toList], { content := .ok (Text.bytes "") })] := rfl
  have hread : ∀ entry ∈ chosen sampleTree.walk, Readable entry.2 := by
    rw [hc, List.forall_mem_singleton]
    exact ⟨"", rfl⟩
  obtain ⟨found, hf, hts, -, -, hw⟩ := (ofFolder_mounts hr ht h).2.1 hread
  exact ⟨⟨hr, ht, h⟩, found, hf, hts, hw.trans (by decide +kernel)⟩

end Discovery
end GeneratorHost
