import GeneratorHost.Proofs.Disk
import GeneratorHost.Proofs.Unit.Verdict

/-! The libraries that are found and those that the compiler, which runs elsewhere, is told of. -/
namespace GeneratorHost
open FilePath

namespace References
variable {r : References} {here there : FilePath} {folder : String}

/-- The marker's crate and the configured ones. -/
def libraries (r : References) : List ExternCrate := ⟨macrosCrate, r.macrosLibrary⟩ :: r.externs

/-- What is named from one folder means the same from another, and every folder is named. -/
structure Portable (r : References) (here there : FilePath) : Prop where
  libraries : ∀ e ∈ r.libraries, SamePlace here there e.path
  folders : ∀ folder ∈ r.libraryFolders, SamePlace here there folder
  named : "" ∉ r.libraryFolders ++ r.searchPaths

/-! ### Folders -/

/-- A folder before others, the first of which it replaces if that is spelled in another way. -/
def list (folder : String) : List String → List String
  | next :: rest => if ofText folder = ofText next then folder :: rest else folder :: next :: rest
  | [] => [folder]

theorem libraryFolders_eq (r : References) :
    r.libraryFolders = ((r.libraries.filterMap (parent? ·.path)).mergeSort
      fun a b => lessOrEqual (ofText a) (ofText b)).foldr list [] := by
  have hf : r.libraries.filterMap (parent? ·.path) =
      (r.macrosLibrary :: r.externs.map (·.path)).filterMap parent? := by
    rw [libraries, List.filterMap_cons, List.filterMap_cons, List.filterMap_map]
    rfl
  rw [hf]
  refine List.foldr_ext _ _ _ fun folder _ rest => ?_
  cases rest <;> rfl

theorem mem_of_mem_list {others : List String} {f : String} (h : f ∈ list folder others) : f = folder ∨ f ∈ others := by
  unfold list at h
  split at h
  · split at h
    · exact (List.mem_cons.mp h).imp_right (List.mem_cons_of_mem _)
    · exact List.mem_cons.mp h
  · exact .inl (List.mem_singleton.mp h)

theorem exists_mem_list {others : List String} {f : String} (h : f = folder ∨ ∃ g ∈ others, ofText g = ofText f) :
    ∃ g ∈ list folder others, ofText g = ofText f := by
  unfold list
  cases others with
  | nil =>
    refine ⟨folder, List.mem_singleton_self _, ?_⟩
    rw [h.resolve_right (by simp)]
  | cons next rest =>
    simp only [List.mem_cons, exists_eq_or_imp] at h
    dsimp only
    split
    · rename_i he
      simp only [List.mem_cons, exists_eq_or_imp, he]
      rcases h with rfl | h | h
      · exact .inl he.symm
      · exact .inl h
      · exact .inr h
    · simp only [List.mem_cons, exists_eq_or_imp]
      rcases h with rfl | h | h
      · exact .inl rfl
      · exact .inr (.inl h)
      · exact .inr (.inr h)

/-- The folders of the libraries are listed, each in one of its spellings. -/
theorem libraryFolders_spec (r : References) :
    (∀ folder ∈ r.libraryFolders, ∃ e ∈ r.libraries, parent? e.path = some folder) ∧
    ∀ e ∈ r.libraries, ∀ folder, parent? e.path = some folder →
      ∃ listed ∈ r.libraryFolders, ofText listed = ofText folder := by
  have hl (folders : List String) : (∀ f ∈ folders.foldr list [], f ∈ folders) ∧
      ∀ f ∈ folders, ∃ g ∈ folders.foldr list [], ofText g = ofText f := by
    induction folders with
    | nil => exact ⟨fun _ h => h, fun _ h => nomatch h⟩
    | cons folder folders ih =>
      refine ⟨fun f h => ?_, fun f h => exists_mem_list ?_⟩
      · exact List.mem_cons.mpr ((mem_of_mem_list h).imp_right (ih.1 f))
      · exact (List.mem_cons.mp h).imp_right (ih.2 f)
  have hm (folder : String) : folder ∈ (r.libraries.filterMap (parent? ·.path)).mergeSort
      (fun a b => lessOrEqual (ofText a) (ofText b)) ↔ ∃ e ∈ r.libraries, parent? e.path = some folder := by
    rw [(List.mergeSort_perm _ _).mem_iff, List.mem_filterMap]
  rw [libraryFolders_eq]
  exact ⟨fun f h => (hm f).mp ((hl _).1 f h), fun e he f hf => (hl _).2 f ((hm f).mpr ⟨e, he, hf⟩)⟩

theorem empty_mem_libraryFolders_iff : "" ∈ r.libraryFolders ↔
    ∃ e ∈ r.libraries, ¬ isAbsolute e.path ∧ (ofText e.path).length = 1 := by
  simp only [← parent?_eq_some_empty_iff]
  constructor
  · exact r.libraryFolders_spec.1 ""
  · rintro ⟨e, he, hf⟩
    obtain ⟨listed, hl, ho⟩ := r.libraryFolders_spec.2 e he "" hf
    rwa [← ofText_eq_nil_iff.mp ho]

/-- What absolute paths name is the same everywhere. -/
theorem Portable.of_isAbsolute (h : ∀ e ∈ r.libraries, isAbsolute e.path) (hs : "" ∉ r.searchPaths) :
    r.Portable here there where
  libraries e he := samePlace_iff.mpr (.inl (h e he))
  folders folder hf := by
    obtain ⟨e, he, hp⟩ := r.libraryFolders_spec.1 folder hf
    exact samePlace_iff.mpr (.inl (isAbsolute_of_parent? (h e he) hp))
  named := by
    rw [List.mem_append, not_or, empty_mem_libraryFolders_iff]
    exact ⟨fun ⟨e, he, hn, _⟩ => hn (h e he), hs⟩

theorem forall_portable_iff : (∀ there, r.Portable here there) ↔
    (∀ e ∈ r.libraries, isAbsolute e.path) ∧ "" ∉ r.searchPaths := by
  constructor
  · intro h
    exact ⟨fun e he => forall_samePlace_iff.mp fun there => (h there).libraries e he,
      fun hs => (h here).named (List.mem_append_right _ hs)⟩
  · exact fun h there => .of_isAbsolute h.1 h.2

theorem portable_iff : r.Portable here there ↔
    (∀ e ∈ r.libraries, isAbsolute e.path ∨ (ofText e.path).length ≠ 1 ∧
      here.rdrop (climb (ofText e.path)) = there.rdrop (climb (ofText e.path))) ∧
    (∀ folder ∈ r.libraryFolders, isAbsolute folder ∨
      here.rdrop (climb (ofText folder)) = there.rdrop (climb (ofText folder))) ∧
    "" ∉ r.searchPaths := by
  constructor
  · intro h
    refine ⟨fun e he => ?_, fun folder hf => samePlace_iff.mp (h.folders folder hf),
      fun hs => h.named (List.mem_append_right _ hs)⟩
    refine (Classical.em _).imp_right fun hn => ⟨fun hl => h.named (List.mem_append_left _ ?_), ?_⟩
    · exact empty_mem_libraryFolders_iff.mpr ⟨e, he, hn, hl⟩
    · exact (samePlace_iff.mp (h.libraries e he)).resolve_left hn
  · rintro ⟨hl, hf, hs⟩
    refine ⟨fun e he => samePlace_iff.mpr ((hl e he).imp_right And.right),
      fun folder h => samePlace_iff.mpr (hf folder h), ?_⟩
    rw [List.mem_append, not_or, empty_mem_libraryFolders_iff]
    refine ⟨?_, hs⟩
    rintro ⟨e, he, hn, h1⟩
    exact ((hl e he).resolve_left hn).1 h1

/-! ### Discovery -/

variable {config : ToolchainConfig} {d : Disk} {run : Program} {standard : String}
  {search : Except ConfigError String}

private theorem of_checks {externs : List ExternCrate} {found : References} {missing : ConfigError}
    {absent : ExternCrate → ConfigError} {library : String}
    (h : (do
      if !d.isFile library then throw missing
      match externs.find? fun e => !d.contains e.path with
      | some e => throw (absent e)
      | none => pure ()
      return found : Except ConfigError References) = .ok r) :
    found = r ∧ d.isFile library ∧ ∀ e ∈ externs, d.contains e.path := by
  cases hf : d.isFile library with
  | false =>
    rw [hf] at h
    cases h
  | true =>
    rw [hf] at h
    cases he : externs.find? fun e => !d.contains e.path with
    | some e =>
      rw [he] at h
      cases h
    | none =>
      rw [he] at h
      cases h
      exact ⟨rfl, rfl, fun e he' => by simpa using List.find?_eq_none.mp he e he'⟩

/-- The libraries of a toolchain are those that are configured, or searched for, and they were all there. -/
theorem exists_of_discover (h : discover config d run standard search = .ok r) :
    (config.macrosLibrary? = some r.macrosLibrary ∨ config.macrosLibrary? = none ∧ search = .ok r.macrosLibrary) ∧
    r.externs = config.externs ∧ r.searchPaths = config.searchPaths ∧ d.isFile r.macrosLibrary ∧
    ∀ e ∈ r.externs, d.contains e.path := by
  obtain ⟨description, -, h⟩ := exists_of_bind_eq_ok h
  obtain ⟨⟨version, host⟩, -, h⟩ := exists_of_bind_eq_ok h
  obtain ⟨sysroot, -, h⟩ := exists_of_bind_eq_ok h
  cases hm : config.macrosLibrary? with
  | some path =>
    rw [hm] at h
    obtain ⟨rfl, hc⟩ := of_checks h
    exact ⟨.inl rfl, rfl, rfl, hc⟩
  | none =>
    rw [hm] at h
    obtain ⟨library, hl, h⟩ := exists_of_bind_eq_ok h
    obtain ⟨rfl, hc⟩ := of_checks h
    exact ⟨.inr ⟨rfl, hl⟩, rfl, rfl, hc⟩

/-- The libraries of a toolchain were found from the folder that it was looked for in. -/
theorem exists_find_of_discover (h : discover config d run standard search = .ok r) :
    ∀ e ∈ r.libraries, ∃ entry, d.find e.path = .ok (d.current.follow (ofText e.path), entry) := by
  have hfind {path : String} (hc : d.contains path) :
      ∃ entry, d.find path = .ok (d.current.follow (ofText path), entry) := by
    unfold Disk.contains at hc
    cases hf : d.find path with
    | error reason =>
      rw [hf] at hc
      cases hc
    | ok found => exact ⟨found.2, by rw [Disk.find_eq_follow hf]⟩
  obtain ⟨-, -, -, hm, he⟩ := exists_of_discover h
  rw [libraries, List.forall_mem_cons]
  refine ⟨hfind ?_, fun e h => hfind (he e h)⟩
  unfold Disk.isFile at hm
  unfold Disk.contains
  cases hf : d.find r.macrosLibrary with
  | error reason =>
    rw [hf] at hm
    cases hm
  | ok found => rfl

/-- The libraries of a toolchain were found from the folder that it was looked for in, and every compiler is told of
them as they are spelled, in a workspace of its own. What it is told means the same there for absolute paths, and for
relative ones that lead up out of where the two folders differ; it does so in every workspace for absolute ones alone.
The folder of a library in the current folder has no name. -/
theorem discover_portable_iff (h : discover config d run standard search = .ok r) :
    (∀ e ∈ r.libraries, ∃ entry, d.find e.path = .ok (d.current.follow (ofText e.path), entry)) ∧
    (∀ c : UnitCompiler, c.references = r → ∀ candidate asked, (c.call candidate).run = some (.ok asked) →
      asked.folder = c.workspace ∧ r.libraryArguments <:+: asked.arguments) ∧
    (∀ there, r.Portable d.current there ↔
      (∀ e ∈ r.libraries, isAbsolute e.path ∨ (ofText e.path).length ≠ 1 ∧
        d.current.rdrop (climb (ofText e.path)) = there.rdrop (climb (ofText e.path))) ∧
      (∀ folder ∈ r.libraryFolders, isAbsolute folder ∨
        d.current.rdrop (climb (ofText folder)) = there.rdrop (climb (ofText folder))) ∧
      "" ∉ config.searchPaths) ∧
    ((∀ there, r.Portable d.current there) ↔
      (∀ e ∈ r.libraries, isAbsolute e.path) ∧ "" ∉ config.searchPaths) := by
  obtain ⟨-, -, hs, -⟩ := exists_of_discover h
  rw [← hs]
  refine ⟨exists_find_of_discover h, ?_, fun there => portable_iff, forall_portable_iff⟩
  rintro c rfl candidate asked hc
  obtain ⟨-, disk, -, rfl⟩ := UnitCompiler.call_eq_ok_iff.mp hc
  refine ⟨rfl, ?_⟩
  unfold UnitCompiler.callOn UnitCompiler.arguments
  rw [List.append_assoc _ c.flags]
  exact List.infix_append _ _ _

/-- A program that describes a compiler. -/
def describing : Program := fun _ _ => .ok { stdout := "rustc 1.89.0\nhost: here\nrelease: 1.89.0\n" }

/-- Libraries that are named from the current folder. -/
def sampleConfig : ToolchainConfig := { macrosLibrary? := some "lib/m.so", externs := [⟨"serde", "serde.rlib"⟩] }

def sampleDisk : Disk where
  files := [([.name "home".toList, .name "lib".toList, .name "m.so".toList], ⟨.ok [], 0⟩),
    ([.name "home".toList, .name "serde.rlib".toList], ⟨.ok [], 0⟩)]
  current := [.name "home".toList]

def sampleReferences : References :=
  ⟨"rustc", ⟨1, 89, 0⟩, "here", "rustc 1.89.0\nhost: here\nrelease: 1.89.0", "lib/m.so", [⟨"serde", "serde.rlib"⟩], []⟩

theorem discover_sample : discover sampleConfig sampleDisk describing "rustc" (.error (.macrosLibraryNotFound [])) =
    .ok sampleReferences := by
  have h : (discover sampleConfig sampleDisk describing "rustc" (.error (.macrosLibraryNotFound []))).toOption =
      some sampleReferences := by
    decide +kernel
  cases hd : discover sampleConfig sampleDisk describing "rustc" (.error (.macrosLibraryNotFound [])) with
  | error e =>
    rw [hd] at h
    cases h
  | ok r =>
    rw [hd] at h
    exact congrArg Except.ok (Option.some.inj h)

/-- From another folder, the folder of the first library is another one. -/
theorem discover_portable_iff_sample :
    discover sampleConfig sampleDisk describing "rustc" (.error (.macrosLibraryNotFound [])) = .ok sampleReferences ∧
    ¬ ∀ there, sampleReferences.Portable sampleDisk.current there := by
  obtain ⟨-, -, -, h⟩ := discover_portable_iff discover_sample
  refine ⟨discover_sample, fun hp => ?_⟩
  have ha := (h.mp hp).1 ⟨macrosCrate, "lib/m.so"⟩ (.head _)
  rw [isAbsolute_iff] at ha
  cases ha

/-- What the compiler is told of means what was found, whenever it is called. -/
def SeesFound (config : ToolchainConfig) (d : Disk) (run : Program) (standard : String)
    (search : Except ConfigError String) : Prop :=
  ∀ r, discover config d run standard search = .ok r → ∀ c : UnitCompiler, c.references = r →
    ∀ candidate asked, (c.call candidate).run = some (.ok asked) →
      r.Portable d.current (d.current.follow (ofText asked.folder))

/-- The compiler runs in the workspace and is told to look for `lib/m.so` and in a folder without a name. -/
theorem not_seesFound : ¬ ∀ config d run standard search, SeesFound config d run standard search := by
  intro h
  obtain ⟨candidate, -, -, -, asked, hc⟩ := Pass.exists_sample_candidate
  obtain ⟨he, disk, hd, -⟩ := UnitCompiler.call_eq_ok_iff.mp hc
  let c : UnitCompiler := { Pass.samplePass.compiler with references := sampleReferences }
  obtain ⟨he, -⟩ := UnitCompiler.checkEdition_eq_ok_iff.mp he
  have he' : c.checkEdition candidate.node.tree = .ok () := by
    refine UnitCompiler.checkEdition_eq_ok_iff.mpr ⟨he, ?_⟩
    rw [he]
    exact ⟨by decide, by decide⟩
  have hc' : (c.call candidate).run = some (.ok (c.callOn candidate.node.tree disk)) :=
    UnitCompiler.call_eq_ok_iff.mpr ⟨he', disk, hd, rfl⟩
  have hp := h _ _ _ _ _ _ discover_sample c rfl candidate _ hc'
  have hbare : ¬ isAbsolute "serde.rlib" := fun h => nomatch isAbsolute_iff.mp h
  exact hp.named (List.mem_append_left _
    (empty_mem_libraryFolders_iff.mpr ⟨⟨"serde", "serde.rlib"⟩, .tail _ (.head _), hbare, by decide⟩))

end References
end GeneratorHost
