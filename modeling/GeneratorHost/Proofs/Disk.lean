import GeneratorHost.Disk
import GeneratorHost.Proofs.Text.Paths

/-! What a disk holds after a file was written or folders were added: the written file, and what was there in other
places before. -/
namespace GeneratorHost

theorem exists_of_bind_eq_ok {ε α β : Type} {x : Except ε α} {f : α → Except ε β} {b : β}
    (h : x >>= f = .ok b) : ∃ a, x = .ok a ∧ f a = .ok b := by
  cases x with
  | error e => cases h
  | ok a => exact ⟨a, rfl, h⟩

namespace FilePath

theorem follow_append (here ps qs : FilePath) : follow here (ps ++ qs) = follow (follow here ps) qs := by
  induction ps generalizing here with
  | nil => rfl
  | cons p ps ih => cases p <;> exact ih _

/-- Names lead down. -/
theorem follow_names (here : FilePath) (names : List (List Char)) :
    follow here (names.map .name) = here ++ names.map .name := by
  induction names generalizing here with
  | nil => exact (List.append_nil _).symm
  | cons cs names ih => rw [List.map_cons, follow, ih, List.append_assoc, List.singleton_append]

end FilePath

namespace Disk
open FilePath
variable {d d' d'' : Disk} {path other : String} {here place : FilePath} {entry : DiskEntry} {file : DiskFile}
  {bytes held : List UInt8} {changed : FilePath → Prop}

/-! ### Finding a file -/

theorem step_eq_follow {part : PathPart} (h : d.step here part = .ok place) :
    here.follow [part] = place := by
  unfold step at h
  split at h
  · cases h
  · cases h
  · cases part with
    | root | current | up =>
      cases h
      rfl
    | name cs =>
      dsimp only at h
      split at h
      · cases h
      · cases h
        rfl

theorem foldlM_step_eq_follow {ps : FilePath} (h : ps.foldlM d.step here = .ok place) : here.follow ps = place := by
  induction ps generalizing here with
  | nil =>
    cases h
    rfl
  | cons p ps ih =>
    rw [List.foldlM_cons] at h
    obtain ⟨next, hs, h⟩ := exists_of_bind_eq_ok h
    rw [← ih h, ← step_eq_follow hs]
    cases p <;> rfl

theorem locate_eq_ok_iff : d.locate path = .ok place ↔
    ¬ path.toList.contains '\x00' ∧ path ≠ "" ∧ (ofText path).foldlM d.step d.current = .ok place := by
  unfold locate
  by_cases hz : path.toList.contains '\x00'
  · rw [if_pos hz]
    exact ⟨nofun, fun h => absurd hz h.1⟩
  · rw [if_neg hz]
    by_cases hn : path = ""
    · rw [if_pos hn]
      exact ⟨nofun, fun h => absurd hn h.2.1⟩
    · rw [if_neg hn]
      exact ⟨fun h => ⟨hz, hn, h⟩, fun h => h.2.2⟩

/-- A path that is located leads there. -/
theorem locate_eq_follow (h : d.locate path = .ok place) : d.current.follow (ofText path) = place :=
  foldlM_step_eq_follow (locate_eq_ok_iff.mp h).2.2

theorem locate_of_find (h : d.find path = .ok (place, entry)) : d.locate path = .ok place := by
  unfold find at h
  obtain ⟨found, hl, h⟩ := exists_of_bind_eq_ok h
  split at h
  · cases h
  · split at h
    · cases h
    · cases h
      exact hl
  · cases h
    exact hl

theorem find_eq_follow (h : d.find path = .ok (place, entry)) :
    d.current.follow (ofText path) = place :=
  locate_eq_follow (locate_of_find h)

/-- A path leads to a file with these bytes. -/
def Holds (d : Disk) (path : String) (bytes : List UInt8) : Prop :=
  ∃ place file, d.find path = .ok (place, .file file) ∧ file.content = .ok bytes

theorem find_eq_file_iff : d.find path = .ok (place, .file file) ↔
    d.locate path = .ok place ∧ d.entry? place = some (.file file) ∧ ¬ path.endsWith "/" := by
  constructor
  · intro h
    have hl := locate_of_find h
    rw [find, hl] at h
    dsimp only [bind, Except.bind] at h
    split at h
    · cases h
    · rename_i he
      split at h
      · cases h
      · rename_i hs
        cases h
        exact ⟨hl, he, hs⟩
    · cases h
  · rintro ⟨hl, he, hs⟩
    rw [find, hl]
    dsimp only [bind, Except.bind]
    rw [he]
    exact if_neg hs

theorem Holds.unique (h : d.Holds path bytes) (h' : d.Holds path held) : bytes = held := by
  obtain ⟨place, file, hf, hb⟩ := h
  obtain ⟨place', file', hf', hb'⟩ := h'
  cases hf.symm.trans hf'
  exact Except.ok.inj (hb.symm.trans hb')

/-! ### What stays on a disk -/

/-- What is on a disk is on another one, except for the files in some places. -/
structure KeepsBut (changed : FilePath → Prop) (d d' : Disk) : Prop where
  current : d'.current = d.current
  folder : ∀ place, d.entry? place = some .folder → d'.entry? place = some .folder
  file : ∀ place file, ¬ changed place → d.entry? place = some (.file file) → d'.entry? place = some (.file file)

theorem KeepsBut.refl (d : Disk) : KeepsBut changed d d := ⟨rfl, fun _ h => h, fun _ _ _ h => h⟩

theorem KeepsBut.trans (h : KeepsBut changed d d') (h' : KeepsBut changed d' d'') : KeepsBut changed d d'' :=
  ⟨h'.current.trans h.current, fun place hp => h'.folder place (h.folder place hp),
    fun place file hc hp => h'.file place file hc (h.file place file hc hp)⟩

theorem KeepsBut.step (h : KeepsBut changed d d') {part : PathPart} (hs : d.step here part = .ok place) :
    d'.step here part = .ok place := by
  unfold Disk.step at hs ⊢
  split at hs
  · cases hs
  · cases hs
  · rename_i he
    rw [h.folder here he]
    exact hs

theorem KeepsBut.foldlM_step (h : KeepsBut changed d d') {ps : FilePath} (hs : ps.foldlM d.step here = .ok place) :
    ps.foldlM d'.step here = .ok place := by
  induction ps generalizing here with
  | nil => exact hs
  | cons p ps ih =>
    rw [List.foldlM_cons] at hs ⊢
    obtain ⟨next, hp, hs⟩ := exists_of_bind_eq_ok hs
    rw [h.step hp]
    exact ih hs

/-- Folders lead where they led before. -/
theorem KeepsBut.locate (h : KeepsBut changed d d') (hl : d.locate path = .ok place) : d'.locate path = .ok place := by
  obtain ⟨hz, hn, hs⟩ := locate_eq_ok_iff.mp hl
  refine locate_eq_ok_iff.mpr ⟨hz, hn, ?_⟩
  rw [h.current]
  exact h.foldlM_step hs

/-- A file is found again where nothing was changed. -/
theorem KeepsBut.holds (h : KeepsBut changed d d') (hh : d.Holds path held)
    (hc : ¬ changed (d.current.follow (ofText path))) : d'.Holds path held := by
  obtain ⟨place, file, hf, hb⟩ := hh
  rw [find_eq_follow hf] at hc
  obtain ⟨hl, he, hs⟩ := find_eq_file_iff.mp hf
  exact ⟨place, file, find_eq_file_iff.mpr ⟨h.locate hl, h.file place file hc he, hs⟩, hb⟩

/-! ### Entries -/

theorem entry?_eq_file_iff :
    d.entry? place = some (.file file) ↔ ∃ entry, d.files.find? (·.1 = place) = some entry ∧ entry.2 = file := by
  unfold entry?
  cases d.files.find? (·.1 = place) with
  | none =>
    dsimp only
    split <;> simp
  | some entry => simp

theorem entry?_eq_folder_iff : d.entry? place = some .folder ↔ d.files.find? (·.1 = place) = none ∧
    (place = [] ∨ (∃ folder ∈ d.folders, place <+: folder) ∨ ∃ entry ∈ d.files, place <+: entry.1) := by
  unfold entry?
  cases d.files.find? (·.1 = place) with
  | none =>
    dsimp only
    split
    · rename_i h
      simpa [or_assoc] using h
    · rename_i h
      simpa [or_assoc] using h
  | some entry => simp

/-! ### Writing a file -/

theorem write_eq_ok_iff : d.write path bytes = .ok d' ↔ ∃ place, d.locate path = .ok place ∧
    d.entry? place ≠ some .folder ∧ ¬ path.endsWith "/" ∧ d.put place bytes = d' := by
  unfold write
  constructor
  · intro h
    obtain ⟨place, hl, h⟩ := exists_of_bind_eq_ok h
    split at h
    · cases h
    · rename_i he
      split at h
      · cases h
      · rename_i hs
        cases h
        exact ⟨place, hl, he, hs, rfl⟩
  · rintro ⟨place, hl, he, hs, rfl⟩
    rw [hl]
    dsimp only [bind, Except.bind]
    split
    · contradiction
    · exact if_neg hs

theorem find?_files_put (d : Disk) (place : FilePath) (bytes : List UInt8) (other : FilePath) :
    (d.put place bytes).files.find? (·.1 = other) =
      if other = place then some (place, { content := .ok bytes }) else d.files.find? (·.1 = other) := by
  rw [put, List.find?_append, List.find?_filter]
  by_cases ho : other = place
  · subst ho
    rw [List.find?_eq_none.mpr (by simp), Option.none_or, List.find?_cons_of_pos (by simp), if_pos rfl]
  · have hc : (fun entry : FilePath × DiskFile =>
        decide (decide (entry.1 ≠ place) = true ∧ decide (entry.1 = other) = true)) =
        fun entry => decide (entry.1 = other) := by
      funext entry
      by_cases he : entry.1 = other
      · simp [he, ho]
      · simp [he]
    rw [hc, List.find?_cons_of_neg (by simpa using fun h => ho h.symm), List.find?_nil, Option.or_none, if_neg ho]

theorem keepsBut_put (h : d.entry? place ≠ some .folder) (bytes : List UInt8) :
    KeepsBut (· = place) d (d.put place bytes) := by
  refine ⟨rfl, fun other ho => ?_, fun other file hne ho => ?_⟩
  · have hne : other ≠ place := by
      rintro rfl
      exact h ho
    rw [entry?_eq_folder_iff] at ho ⊢
    refine ⟨by rw [find?_files_put, if_neg hne, ho.1], ho.2.imp_right (Or.imp_right ?_)⟩
    -- the file that is put away was in the folder, and so is the one in its place
    rintro ⟨entry, hm, hp⟩
    by_cases he : entry.1 = place
    · exact ⟨(place, { content := .ok bytes }), List.mem_append_right _ (List.mem_singleton_self _), he ▸ hp⟩
    · exact ⟨entry, List.mem_append_left _ (List.mem_filter.mpr ⟨hm, by simpa using he⟩), hp⟩
  · rw [entry?_eq_file_iff] at ho ⊢
    rwa [find?_files_put, if_neg hne]

/-- Writing a file changes nothing else. -/
theorem keepsBut_write (h : d.write path bytes = .ok d') :
    KeepsBut (· = d.current.follow (ofText path)) d d' := by
  obtain ⟨place, hl, he, -, rfl⟩ := write_eq_ok_iff.mp h
  rw [locate_eq_follow hl]
  exact keepsBut_put he bytes

/-- A file that was written holds what was written. -/
theorem holds_of_write (h : d.write path bytes = .ok d') : d'.Holds path bytes := by
  obtain ⟨place, hl, he, hs, rfl⟩ := write_eq_ok_iff.mp h
  refine ⟨place, { content := .ok bytes }, find_eq_file_iff.mpr ⟨(keepsBut_put he bytes).locate hl, ?_, hs⟩, rfl⟩
  rw [entry?_eq_file_iff, find?_files_put, if_pos rfl]
  exact ⟨_, rfl, rfl⟩

/-- A file is still there after another one was written in another place. -/
theorem Holds.write (h : d.Holds path held) (hw : d.write other bytes = .ok d')
    (hne : d.current.follow (ofText path) ≠ d.current.follow (ofText other)) : d'.Holds path held :=
  (keepsBut_write hw).holds h hne

/-! ### Adding folders -/

theorem keepsBut_addFolder (d : Disk) (folder : FilePath) :
    KeepsBut (fun _ => False) d { d with folders := d.folders ++ [folder] } where
  current := rfl
  folder place h := by
    rw [entry?_eq_folder_iff] at h ⊢
    exact ⟨h.1, h.2.imp_right (Or.imp_left fun ⟨folder, hm, hp⟩ => ⟨folder, List.mem_append_left _ hm, hp⟩)⟩
  file place file _ h := by
    rw [entry?_eq_file_iff] at h ⊢
    exact h

theorem keepsBut_enter {part : PathPart} (h : d.enter here part = .ok (d', place)) :
    KeepsBut (fun _ => False) d d' := by
  unfold enter at h
  dsimp only at h
  generalize hm : (if (d.entry? here).isNone then { d with folders := d.folders ++ [here] } else d) = made at h
  have hd : made = d' := by
    cases hs : made.step here part with
    | error reason =>
      rw [hs] at h
      cases h
    | ok next =>
      rw [hs] at h
      cases h
      rfl
  subst hd hm
  split
  · exact keepsBut_addFolder d here
  · exact .refl d

theorem keepsBut_foldlM_enter {ps : FilePath} {last : Disk × FilePath}
    (h : ps.foldlM (fun (s : Disk × FilePath) part => s.1.enter s.2 part) (d, here) = .ok last) :
    KeepsBut (fun _ => False) d last.1 := by
  induction ps generalizing d here with
  | nil =>
    cases h
    exact .refl d
  | cons p ps ih =>
    rw [List.foldlM_cons] at h
    obtain ⟨next, hn, h⟩ := exists_of_bind_eq_ok h
    exact (keepsBut_enter hn).trans (ih h)

/-- Adding folders changes nothing else. -/
theorem keepsBut_createFolders (h : d.createFolders path = .ok d') : KeepsBut (fun _ => False) d d' := by
  unfold createFolders at h
  by_cases hz : path.toList.contains '\x00'
  · rw [if_pos hz] at h
    cases h
  · rw [if_neg hz] at h
    by_cases hn : path = ""
    · rw [if_pos hn] at h
      cases h
      exact .refl d
    · rw [if_neg hn] at h
      obtain ⟨⟨last, place⟩, hl, h⟩ := exists_of_bind_eq_ok h
      have hk := keepsBut_foldlM_enter hl
      dsimp only at h hk
      split at h
      · cases h
      · cases h
        exact hk
      · cases h
        exact hk.trans (keepsBut_addFolder _ _)

end Disk
end GeneratorHost
