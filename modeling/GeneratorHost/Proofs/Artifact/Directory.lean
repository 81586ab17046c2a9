import Mathlib.Data.List.Nodup
import Mathlib.Tactic.Common
import GeneratorHost.Proofs.Artifact.Store
import GeneratorHost.Proofs.Text.Paths

/-! What sinks answer to requests, one after the other. A directory takes the sources that a store in memory
takes as long as its files can be written, and a file that could not be written leaves its name free. -/
namespace GeneratorHost

/-! ### Requests -/

namespace Sink
variable {σ ρ : Type}

/-- A sink after requests. -/
def after (ask : σ → ρ → σ × Option SinkError) (s : σ) (rs : List ρ) : σ := rs.foldl (fun s r => (ask s r).1) s

/-- What a sink answers to requests: why it refuses them, or nothing. -/
def answers (ask : σ → ρ → σ × Option SinkError) : σ → List ρ → List (Option SinkError)
  | _, [] => []
  | s, r :: rs => (ask s r).2 :: answers ask (ask s r).1 rs

/-- The requests that a sink accepts. -/
def accepted (ask : σ → ρ → σ × Option SinkError) : σ → List ρ → List ρ
  | _, [] => []
  | s, r :: rs => if (ask s r).2 = none then r :: accepted ask (ask s r).1 rs else accepted ask (ask s r).1 rs

end Sink

namespace ArtifactStore
variable (s : ArtifactStore)

/-- A store asked to take a source. -/
def ask (a : Artifact) : ArtifactStore × Option SinkError :=
  match s.add a.name a.text with
  | .ok s' => (s', none)
  | .error e => (s, some e)

theorem ask_eq (a : Artifact) : s.ask a =
    if ¬ isArtifactName a.name then (s, some (.invalidName a.name))
    else if a.name ∈ s.names then (s, some (.duplicate a.name))
    else (⟨s.artifacts ++ [a]⟩, none) := by
  unfold ask add
  by_cases hp : isArtifactName a.name
  · by_cases hn : a.name ∈ s.names <;> simp [hp, hn]
  · simp [hp]

/-- A store holds what it accepted. -/
theorem artifacts_after (as : List Artifact) :
    (Sink.after ask s as).artifacts = s.artifacts ++ Sink.accepted ask s as := by
  induction as generalizing s with
  | nil => exact (List.append_nil _).symm
  | cons a as ih =>
    change (Sink.after ask (s.ask a).1 as).artifacts = _
    rw [ih, Sink.accepted, ask_eq]
    split
    · simp
    · split <;> simp

end ArtifactStore

/-! ### Directories -/

namespace Writer

/-- What a system promises about the files of a directory: a file that was written holds the text, and
the other files stay as they are, whether it was written or not. -/
structure Faithful (write : Writer) : Prop where
  get?_of_done : ∀ f name text, (write f name text).2 = none → (write f name text).1.get? name = some text
  get?_of_ne : ∀ f name text other, other ≠ name → (write f name text).1.get? other = f.get? other

end Writer

namespace Folder

/-- An entry that is put at the end in place of the others of its key. -/
theorem lookup_replaced {α : Type} (key : String) (value : α) (other : String) (entries : List (String × α)) :
    (entries.filter (·.1 ≠ key) ++ [(key, value)]).lookup other =
      if other = key then some value else entries.lookup other := by
  induction entries with
  | nil => by_cases ho : other = key <;> simp [List.lookup_cons, ho, beq_false_of_ne]
  | cons entry entries ih =>
    obtain ⟨k, v⟩ := entry
    by_cases hk : k = key
    · subst hk
      rw [List.filter_cons_of_neg (by simp), ih, List.lookup_cons]
      by_cases ho : other = k
      · rw [if_pos ho, if_pos ho]
      · rw [if_neg ho, if_neg ho, beq_false_of_ne ho]
    · rw [List.filter_cons_of_pos (by simpa using hk), List.cons_append, List.lookup_cons, List.lookup_cons, ih]
      by_cases ho : other = k
      · subst ho
        simp [hk]
      · simp [beq_false_of_ne ho]

theorem get?_write (f : Folder) (name text other : String) : (f.write name text).1.get? other =
    if (f.write name text).2 = none ∧ other = name then some text else f.get? other := by
  unfold write
  split
  · simp
  · split
    · simp
    · simp only [get?, lookup_replaced, true_and]

theorem write_faithful : Writer.Faithful write where
  get?_of_done f name text h := by rw [get?_write, if_pos ⟨h, rfl⟩]
  get?_of_ne f name text other h := by rw [get?_write, if_neg fun he => h he.2]

end Folder

namespace DirectorySink
variable {write : Writer} {s : DirectorySink} {name text : String}

/-- What can come of a source that a directory is asked to take. -/
inductive Outcome (write : Writer) (s : DirectorySink) (name text : String) : DirectorySink × Option SinkError → Prop
  | invalid (hp : ¬ isArtifactName name) : Outcome write s name text (s, some (.invalidName name))
  | duplicate (hp : isArtifactName name) (hn : name ∈ s.written) :
    Outcome write s name text (s, some (.duplicate name))
  | done {folder : Folder} (hp : isArtifactName name) (hn : name ∉ s.written)
    (hw : write s.folder name text = (folder, none)) : Outcome write s name text (⟨folder, s.written ++ [name]⟩, none)
  | failed {folder : Folder} {source : String} (hp : isArtifactName name) (hn : name ∉ s.written)
    (hw : write s.folder name text = (folder, some source)) :
    Outcome write s name text (⟨folder, s.written⟩, some (.io name source))

theorem outcome_put (write : Writer) (s : DirectorySink) (name text : String) :
    Outcome write s name text (s.put write name text) := by
  unfold put
  by_cases hp : isArtifactName name
  · by_cases hn : name ∈ s.written
    · simp only [hp, hn, List.contains_iff_mem]
      exact .duplicate hp hn
    · have he : (s.written ++ [name]).erase name = s.written := by
        rw [List.erase_append_right _ hn, List.erase_cons_head, List.append_nil]
      simp only [hp, hn, List.contains_iff_mem, he]
      cases hw : write s.folder name text with
      | mk folder failure? =>
        cases failure? with
        | none => exact .done hp hn hw
        | some source => exact .failed hp hn hw
  · simp only [hp]
    exact .invalid hp

/-- With the files of a folder, a refused source leaves everything as it was. -/
theorem put_eq_of_refused (h : (s.put Folder.write name text).2 ≠ none) : (s.put Folder.write name text).1 = s := by
  have ho := outcome_put Folder.write s name text
  generalize s.put Folder.write name text = answer at ho h
  cases ho with
  | invalid | duplicate => rfl
  | done => exact absurd rfl h
  | failed hp hn hw =>
    unfold Folder.write at hw
    split at hw
    · cases hw
      rfl
    · split at hw
      · cases hw
        rfl
      · cases hw

end DirectorySink

/-- A source for a directory, and what the system does with files when it is asked for. -/
structure DirectoryRequest extends Artifact where
  write : Writer

namespace DirectorySink
variable {s : DirectorySink} {r : DirectoryRequest} {name : String}

/-- A directory asked to take a source. -/
def ask (s : DirectorySink) (r : DirectoryRequest) : DirectorySink × Option SinkError := s.put r.write r.name r.text

theorem outcome_ask (s : DirectorySink) (r : DirectoryRequest) : Outcome r.write s r.name r.text (s.ask r) :=
  outcome_put r.write s r.name r.text

/-! ### A single request -/

/-- A directory accepts a plain name that it has not written, if the file can be written now. -/
theorem ask_accepts_iff : (s.ask r).2 = none ↔
    isArtifactName r.name ∧ r.name ∉ s.written ∧ (r.write s.folder r.name r.text).2 = none := by
  have ho := outcome_ask s r
  generalize s.ask r = answer at ho
  cases ho with
  | invalid hp => simp [hp]
  | duplicate hp hn => simp [hn]
  | done hp hn hw => simp [hp, hn, hw]
  | failed hp hn hw => simp [hw]

/-- The names that a directory has written are those that it accepted. -/
theorem written_ask (s : DirectorySink) (r : DirectoryRequest) :
    (s.ask r).1.written = s.written ++ if (s.ask r).2 = none then [r.name] else [] := by
  have ho := outcome_ask s r
  generalize s.ask r = answer at ho
  cases ho <;> simp

theorem get?_ask_of_accepted (hw : r.write.Faithful) (h : (s.ask r).2 = none) :
    (s.ask r).1.folder.get? r.name = some r.text := by
  have hf := hw.get?_of_done s.folder r.name r.text (ask_accepts_iff.mp h).2.2
  have ho := outcome_ask s r
  generalize s.ask r = answer at ho h
  cases ho with
  | invalid | duplicate | failed => cases h
  | done hp hn hd =>
    rw [hd] at hf
    exact hf

/-- Whatever is asked for, files that were written stay. -/
theorem get?_ask_of_written (hw : r.write.Faithful) (h : name ∈ s.written) :
    (s.ask r).1.folder.get? name = s.folder.get? name := by
  have hf (hn : r.name ∉ s.written) := hw.get?_of_ne s.folder r.name r.text name fun he => hn (he ▸ h)
  have ho := outcome_ask s r
  generalize s.ask r = answer at ho
  cases ho with
  | invalid | duplicate => rfl
  | done hp hn hd =>
    have hf := hf hn
    rw [hd] at hf
    exact hf
  | failed hp hn hd =>
    have hf := hf hn
    rw [hd] at hf
    exact hf

/-- A file apart, a directory answers like a store that holds the names that it has written. -/
theorem ask_eq_store {t : ArtifactStore} (h : s.written = t.names)
    (hio : ∀ source, (s.ask r).2 ≠ some (.io r.name source)) :
    (s.ask r).2 = (t.ask r.toArtifact).2 ∧ (s.ask r).1.written = (t.ask r.toArtifact).1.names := by
  rw [ArtifactStore.ask_eq]
  have ho := outcome_ask s r
  generalize s.ask r = answer at ho hio
  cases ho with
  | invalid hp => simp [hp, h]
  | duplicate hp hn =>
    rw [h] at hn
    simp [hp, hn, h]
  | done hp hn hw =>
    rw [h] at hn
    rw [if_neg (not_not.mpr hp), if_neg hn, ArtifactStore.names_mk, List.map_append, h]
    exact ⟨rfl, rfl⟩
  | @failed folder source => exact absurd rfl (hio source)

/-! ### All requests -/

theorem written_after (s : DirectorySink) (rs : List DirectoryRequest) :
    (Sink.after ask s rs).written = s.written ++ (Sink.accepted ask s rs).map (·.name) := by
  induction rs generalizing s with
  | nil => exact (List.append_nil _).symm
  | cons r rs ih =>
    change (Sink.after ask (s.ask r).1 rs).written = _
    rw [ih, written_ask, Sink.accepted, List.append_assoc]
    split <;> rfl

theorem nodup_written_after (h : s.written.Nodup) (rs : List DirectoryRequest) :
    (Sink.after ask s rs).written.Nodup := by
  induction rs generalizing s with
  | nil => exact h
  | cons r rs ih =>
    refine ih ?_
    rw [written_ask]
    split
    · rename_i ha
      exact List.concat_eq_append ▸ h.concat (ask_accepts_iff.mp ha).2.1
    · rwa [List.append_nil]

theorem get?_after_of_written {rs : List DirectoryRequest} (hw : ∀ r ∈ rs, r.write.Faithful) (h : name ∈ s.written) :
    (Sink.after ask s rs).folder.get? name = s.folder.get? name := by
  induction rs generalizing s with
  | nil => rfl
  | cons r rs ih =>
    rw [List.forall_mem_cons] at hw
    refine (ih hw.2 ?_).trans (get?_ask_of_written hw.1 h)
    rw [written_ask]
    exact List.mem_append_left _ h

/-- In the end every file that was accepted holds its text. -/
theorem get?_after_of_accepted {rs : List DirectoryRequest} (hw : ∀ r ∈ rs, r.write.Faithful)
    (hr : r ∈ Sink.accepted ask s rs) : (Sink.after ask s rs).folder.get? r.name = some r.text := by
  induction rs generalizing s with
  | nil => cases hr
  | cons first rs ih =>
    rw [List.forall_mem_cons] at hw
    rw [Sink.accepted] at hr
    split at hr
    · rename_i ha
      rcases List.mem_cons.mp hr with rfl | hr
      · refine (get?_after_of_written hw.2 ?_).trans (get?_ask_of_accepted hw.1 ha)
        rw [written_ask, if_pos ha]
        exact List.mem_append_right _ (List.mem_singleton_self _)
      · exact ih hw.2 hr
    · exact ih hw.2 hr

theorem answers_eq_store {t : ArtifactStore} {rs : List DirectoryRequest} (h : s.written = t.names)
    (hio : ∀ name source, some (.io name source) ∉ Sink.answers ask s rs) :
    Sink.answers ask s rs = Sink.answers ArtifactStore.ask t (rs.map (·.toArtifact)) ∧
      (Sink.after ask s rs).written = (Sink.after ArtifactStore.ask t (rs.map (·.toArtifact))).names := by
  induction rs generalizing s t with
  | nil => exact ⟨rfl, h⟩
  | cons r rs ih =>
    simp only [Sink.answers, List.mem_cons, not_or] at hio
    obtain ⟨ha, hw⟩ := ask_eq_store h fun source he => (hio r.name source).1 he.symm
    obtain ⟨has, hws⟩ := ih hw fun name source => (hio name source).2
    exact ⟨by rw [List.map_cons, Sink.answers, Sink.answers, ha, has], hws⟩

theorem isArtifactName_of_accepted {rs : List DirectoryRequest} (hr : r ∈ Sink.accepted ask s rs) :
    isArtifactName r.name := by
  induction rs generalizing s with
  | nil => cases hr
  | cons first rs ih =>
    rw [Sink.accepted] at hr
    split at hr
    · rename_i ha
      rcases List.mem_cons.mp hr with rfl | hr
      · exact (ask_accepts_iff.mp ha).1
      · exact ih hr
    · exact ih hr

end DirectorySink

/-- The file of a plain name is in the directory itself. -/
theorem ofText_join_of_isArtifactName {name : String} (h : isArtifactName name) (directory : String) :
    FilePath.ofText (FilePath.join directory name) = FilePath.ofText directory ++ [.name name.toList] := by
  simp only [isArtifactName, Bool.and_eq_true, decide_eq_true_iff, List.all_eq_true] at h
  obtain ⟨⟨⟨he, hd⟩, hu⟩, hc⟩ := h
  refine FilePath.ofText_join directory (fun hs => (hc _ hs).1.1 rfl) ?_ fun h => hu (String.toList_inj.mp h)
  rw [FilePath.isSkipped, Bool.or_eq_true, decide_eq_true_iff, List.isEmpty_iff, not_or]
  exact ⟨fun h => he (String.toList_eq_nil_iff.mp h), fun h => hd (String.toList_inj.mp h)⟩

/-- As long as all files can be written, a directory answers to every sequence of requests what an empty
store answers, and takes as many sources. What it accepts is in the end a file in the directory itself with
the text of the one request of that name that was accepted. Whatever files cannot be written, and when, a
request that is refused does not change which names were written, and a plain name that was not accepted
before is accepted as soon as its file can be written. -/
theorem directory_agrees_with_store (folder : Folder) (rs : List DirectoryRequest) :
    let s : DirectorySink := { folder }
    ((∀ name source, some (.io name source) ∉ Sink.answers DirectorySink.ask s rs) →
      Sink.answers DirectorySink.ask s rs = Sink.answers ArtifactStore.ask {} (rs.map (·.toArtifact)) ∧
      (Sink.after DirectorySink.ask s rs).written.length =
        (Sink.after ArtifactStore.ask {} (rs.map (·.toArtifact))).size) ∧
    ((∀ r ∈ rs, r.write.Faithful) → ∀ r ∈ Sink.accepted DirectorySink.ask s rs,
      (Sink.after DirectorySink.ask s rs).folder.get? r.name = some r.text ∧
      ∀ directory, FilePath.ofText (FilePath.join directory r.name) =
        FilePath.ofText directory ++ [.name r.name.toList]) ∧
    ((Sink.accepted DirectorySink.ask s rs).map (·.name)).Nodup ∧
    ∀ r, let now := Sink.after DirectorySink.ask s rs
      ((now.ask r).2 ≠ none → (now.ask r).1.written = now.written) ∧
      ((now.ask r).2 = none ↔ isArtifactName r.name ∧
        r.name ∉ (Sink.accepted DirectorySink.ask s rs).map (·.name) ∧
        (r.write now.folder r.name r.text).2 = none) := by
  intro s
  have hw : (Sink.after DirectorySink.ask s rs).written = (Sink.accepted DirectorySink.ask s rs).map (·.name) :=
    (DirectorySink.written_after s rs).trans (List.nil_append _)
  refine ⟨fun hio => ?_, fun hf r hr => ?_, ?_, fun r => ⟨fun h => ?_, ?_⟩⟩
  · obtain ⟨ha, hn⟩ := DirectorySink.answers_eq_store (t := {}) rfl hio
    refine ⟨ha, ?_⟩
    rw [hn, ArtifactStore.names, List.length_map, ArtifactStore.size]
  · exact ⟨DirectorySink.get?_after_of_accepted hf hr,
      ofText_join_of_isArtifactName (DirectorySink.isArtifactName_of_accepted hr)⟩
  · rw [← hw]
    exact DirectorySink.nodup_written_after (s := s) List.nodup_nil rs
  · rw [DirectorySink.written_ask, if_neg h, List.append_nil]
  · rw [DirectorySink.ask_accepts_iff, hw]

/-- A name that is asked for twice, and one that is not plain. -/
theorem directory_agrees_with_store_sample :
    let rs : List DirectoryRequest := [⟨⟨"a.rs", "1"⟩, Folder.write⟩, ⟨⟨"a.rs", "2"⟩, Folder.write⟩,
      ⟨⟨"a/b.rs", "3"⟩, Folder.write⟩]
    Sink.answers DirectorySink.ask {} rs = Sink.answers ArtifactStore.ask {} (rs.map (·.toArtifact)) ∧
      (Sink.after DirectorySink.ask {} rs).folder.get? "a.rs" = some "1" := by
  intro rs
  have ha : Sink.answers DirectorySink.ask {} rs =
      [none, some (.duplicate "a.rs"), some (.invalidName "a/b.rs")] := by decide +kernel
  obtain ⟨hs, hf, -, -⟩ := directory_agrees_with_store {} rs
  refine ⟨(hs fun name source h => ?_).1, ?_⟩
  · rw [ha] at h
    simp at h
  · refine (hf (fun r hr => ?_) ⟨⟨"a.rs", "1"⟩, Folder.write⟩ (List.mem_cons_self ..)).1
    have hw : ∀ r ∈ rs, r.write = Folder.write := by simp [rs]
    rw [hw r hr]
    exact Folder.write_faithful

/-- A file that cannot be written once can be written later. -/
example : (Sink.answers DirectorySink.ask {} [⟨⟨"a.rs", "1"⟩, fun f _ _ => (f, some "No space left on device")⟩,
    ⟨⟨"a.rs", "2"⟩, Folder.write⟩]).map Option.isSome = [true, false] := by decide

end GeneratorHost
