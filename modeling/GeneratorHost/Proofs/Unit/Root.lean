import GeneratorHost.Host.Layout
import GeneratorHost.Proofs.Text.Colons
import GeneratorHost.Proofs.Token.Proper

/-! Which names the root of a unit can be written with. The layout of a host takes more file names for module
names: it takes every digit of the character database, and words that no identifier can be. -/
namespace GeneratorHost

namespace UnitRoot
variable {name path file : String} {names : List String} {ts : List Token}

/-! ### Names -/

/-- Whether a name can be written as an identifier, raw where it is reserved. -/
def Writable (name : String) : Prop := isIdentifier name.toList ∧ ¬ Token.neverRaw name.toList

instance (name : String) : Decidable (Writable name) := inferInstanceAs (Decidable (_ ∧ _))

/-- A name as it is written. -/
def written (name : String) : Token := .ident (!isNameText name) name default

theorem not_neverRaw_of_isNameText (h : isNameText name) : ¬ Token.neverRaw name.toList := by
  have hw : ∀ word ∈ ["_", "super", "self", "Self", "crate"], isNameText word = false := by decide
  intro hn
  rw [Token.neverRaw, String.ofList_toList, List.contains_iff_mem] at hn
  rw [hw name hn] at h
  cases h

theorem segment?_eq_some_iff {t : Token} : segment? name = some t ↔ Writable name ∧ t = written name := by
  unfold segment? Writable written
  by_cases hi : isIdentifier name.toList
  · by_cases hn : isNameText name
    · simp [hi, hn, not_neverRaw_of_isNameText hn, Token.word, eq_comm]
    · by_cases hr : Token.neverRaw name.toList <;> simp [hi, hn, hr, eq_comm]
  · simp [hi]

theorem mapM_segment?_eq_some_iff :
    names.mapM segment? = some ts ↔ (∀ n ∈ names, Writable n) ∧ ts = names.map written := by
  induction names generalizing ts with
  | nil => simp [eq_comm]
  | cons name names ih =>
    simp only [List.mapM_cons, Option.bind_eq_bind, Option.bind_eq_some_iff, segment?_eq_some_iff, ih,
      List.forall_mem_cons, List.map_cons, Option.pure_def, Option.some.injEq]
    constructor
    · rintro ⟨_, ⟨hn, rfl⟩, _, ⟨hns, rfl⟩, rfl⟩
      exact ⟨⟨hn, hns⟩, rfl⟩
    · rintro ⟨⟨hn, hns⟩, rfl⟩
      exact ⟨_, ⟨hn, rfl⟩, _, ⟨hns, rfl⟩, rfl⟩

theorem map_mapM_segment?_eq_some_iff (f : List Token → List Token) :
    (names.mapM segment?).map f = some ts ↔ (∀ n ∈ names, Writable n) ∧ ts = f (names.map written) := by
  simp only [Option.map_eq_some_iff, mapM_segment?_eq_some_iff]
  constructor
  · rintro ⟨_, ⟨hn, rfl⟩, rfl⟩
    exact ⟨hn, rfl⟩
  · rintro ⟨hn, rfl⟩
    exact ⟨_, ⟨hn, rfl⟩, rfl⟩

theorem written_injective : Function.Injective written := by
  intro name name' h
  exact (Token.ident.inj h).2.1

/-! ### Paths -/

/-- A path of names from the crate. -/
def pathTokens (names : List String) : List Token :=
  .word "crate" :: (names.map written).flatMap fun name => phrase "::" ++ [name]

theorem cratePath?_eq_some_iff :
    cratePath? path = some ts ↔ (∀ n ∈ segments path, Writable n) ∧ ts = pathTokens (segments path) :=
  map_mapM_segment?_eq_some_iff _

theorem Writable.colon_not_mem (h : Writable name) : ':' ∉ name.toList := colon_not_mem_of_isIdentifier h.1

theorem Writable.ne_crate (h : Writable name) : name ≠ "crate" := by
  rintro rfl
  exact absurd h (by decide)

theorem segments_scopePath (h : ∀ n ∈ names, ':' ∉ n.toList) :
    segments (scopePath names) = names.dropWhile (· = "crate") := by
  rw [segments, splitColons_scopePath h, List.dropWhile_cons_of_pos (by simp)]

theorem segments_of_writable (h : ∀ n ∈ names, Writable n) : segments (scopePath names) = names := by
  rw [segments_scopePath fun n hn => (h n hn).colon_not_mem]
  cases names with
  | nil => rfl
  | cons name names => exact List.dropWhile_cons_of_neg (by simpa using (h name List.mem_cons_self).ne_crate)

/-! ### Mounts -/

/-- A file mounted as the module that names lead to from the crate. -/
def mounting (file : String) : List String → List Token
  | [] => []
  | [name] => phrase "#" ++ group .bracket (phrase "path =" ++ literal file) ++
      phrase "pub mod" ++ [written name] ++ phrase ";"
  | name :: names => phrase "pub mod" ++ [written name] ++ group .brace (mounting file names)

theorem mounting_cons (file name : String) (h : names ≠ []) : mounting file (name :: names) =
    phrase "pub mod" ++ [written name] ++ group .brace (mounting file names) := by
  cases names with
  | nil => exact absurd rfl h
  | cons => rfl

/-- The file is mounted in the last module first, and then in the modules around it. -/
theorem mount?_eq_some_iff {module : String} :
    mount? module file = some ts ↔ (∀ n ∈ segments module, Writable n) ∧ ts = mounting file (segments module) := by
  rw [mount?, map_mapM_segment?_eq_some_iff]
  refine and_congr_right fun _ => Eq.congr_right ?_
  generalize segments module = names
  induction names with
  | nil => rfl
  | cons name names ih =>
    by_cases hn : names = []
    · subst hn
      rfl
    · rw [mounting_cons file name hn, ← ih, List.map_cons, List.reverse_cons]
      obtain ⟨last, parents, he⟩ := List.exists_cons_of_ne_nil
        (by simpa using hn : (names.map written).reverse ≠ [])
      rw [he]
      simp only [List.cons_append, List.foldl_append, List.foldl_cons, List.foldl_nil]

/-- What is mounted tells the names that it is mounted behind. -/
theorem mounting_injective (file : String) : Function.Injective (mounting file) := by
  have hh : phrase "#" = [.punct '#' false default] := rfl
  have hm : phrase "pub mod" = [.word "pub", .word "mod"] := rfl
  intro names
  induction names with
  | nil =>
    rintro (_ | ⟨name', names'⟩) h
    · rfl
    · cases names' <;> simp [mounting, hh, hm] at h
  | cons name names ih =>
    rintro (_ | ⟨name', names'⟩) h
    · cases names <;> simp [mounting, hh, hm] at h
    · rcases eq_or_ne names [] with rfl | hn <;> rcases eq_or_ne names' [] with rfl | hn'
      · have hw : written name = written name' := by simpa [mounting] using h
        rw [written_injective hw]
      · simp [mounting, mounting_cons _ _ hn', hh, hm, Token.word] at h
      · simp [mounting, mounting_cons _ _ hn, hh, hm, Token.word] at h
      · rw [mounting_cons _ _ hn, mounting_cons _ _ hn'] at h
        have hw : written name = written name' ∧ mounting file names = mounting file names' := by
          simpa [group] using h
        rw [written_injective hw.1, ih hw.2]

/-! ### Roots -/

section
variable {module support supportFile text : String} {edition : Edition}

theorem entryPoints?_eq_some_iff : entryPoints? name support edition = some ts ↔
    (∀ n ∈ segments name, Writable n) ∧ (∀ n ∈ segments (scopePath [support]), Writable n) ∧
      ts = entryPoints name edition (pathTokens (segments name)) (pathTokens (segments (scopePath [support]))) := by
  simp only [entryPoints?, crate_append, Option.bind_eq_bind, Option.bind_eq_some_iff, cratePath?_eq_some_iff,
    Option.pure_def, Option.some.injEq]
  constructor
  · rintro ⟨_, ⟨hn, rfl⟩, _, ⟨hs, rfl⟩, rfl⟩
    exact ⟨hn, hs, rfl⟩
  · rintro ⟨hn, hs, rfl⟩
    exact ⟨_, ⟨hn, rfl⟩, _, ⟨hs, rfl⟩, rfl⟩

theorem isSome_separate?_iff : (separate? name module file support supportFile edition).isSome ↔
    (∀ n ∈ segments (scopePath [support]), Writable n) ∧ (∀ n ∈ segments module, Writable n) ∧
      ∀ n ∈ segments name, Writable n := by
  simp only [separate?, crate_append, Option.isSome_iff_exists, Option.bind_eq_bind, Option.bind_eq_some_iff,
    mount?_eq_some_iff, entryPoints?_eq_some_iff, Option.pure_def, Option.some.injEq]
  constructor
  · rintro ⟨_, _, ⟨hs, -⟩, _, ⟨hm, -⟩, _, ⟨hn, -, -⟩, -⟩
    exact ⟨hs, hm, hn⟩
  · rintro ⟨hs, hm, hn⟩
    exact ⟨_, _, ⟨hs, rfl⟩, _, ⟨hm, rfl⟩, _, ⟨hn, hs, rfl⟩, rfl⟩

theorem isSome_joined?_iff : (joined? name text support supportFile edition).isSome ↔
    (∀ n ∈ segments (scopePath [support]), Writable n) ∧ ∀ n ∈ segments name, Writable n := by
  by_cases hd : declaresSupport text support
  · simp [joined?, hd, Option.isSome_iff_exists, Option.bind_eq_some_iff, entryPoints?_eq_some_iff, and_comm]
  · simp [joined?, hd, crate_append, Option.isSome_iff_exists, Option.bind_eq_some_iff, mount?_eq_some_iff,
      entryPoints?_eq_some_iff]
    tauto

end

end UnitRoot

/-! ### Modules of files -/

namespace Layout
variable {path : FilePath} {module : String}

/-- The name of a source file without its ending. -/
def stem (path : FilePath) : List Char :=
  match path.getLast? with
  | some (.name name) => name.take (name.length - 3)
  | _ => []

/-- The folders of a file and the file itself, as far as they name modules. -/
def names (path : FilePath) : List String :=
  (moduleNames (path.dropLast.map PathPart.chars) (stem path)).map String.ofList

theorem colon_not_mem_of_isModuleName {cs : List Char} (h : isModuleName cs) : ':' ∉ cs := by
  have ha : Text.isAlphabetic ':' = false := by decide
  have hn : Text.isNumeric ':' = false := by decide
  cases cs with
  | nil => exact List.not_mem_nil
  | cons c cs =>
    simp only [isModuleName, Bool.and_eq_true, List.all_eq_true] at h
    rw [List.mem_cons]
    rintro (rfl | hm)
    · simp [ha] at h
    · have := h.2 _ hm
      simp [ha, hn] at this

theorem intercalate_eq_scopePath (names : List String) : "::".intercalate ("crate" :: names) = scopePath names := by
  have hi (first : List Char) (rest : List (List Char)) :
      [':', ':'].intercalate (first :: rest) = first ++ rest.flatMap fun piece => ':' :: ':' :: piece := by
    induction rest generalizing first with
    | nil => simp
    | cons second rest ih =>
      rw [List.intercalate_cons_cons, ih]
      simp
  apply String.toList_inj.mp
  rw [String.toList_intercalate, scopePath_toList, List.map_cons]
  exact (hi _ _).trans (congrArg _ (List.flatMap_map _ _ _))

/-- The module of a file is named by its folders and itself. -/
theorem names_of_moduleOf? (h : moduleOf? path = some module) :
    module = scopePath (names path) ∧ ∀ name ∈ names path, ':' ∉ name.toList := by
  unfold moduleOf? at h
  split at h
  · rename_i file hl
    have hs : stem path = file.take (file.length - 3) := by rw [stem, hl]
    rw [← hs] at h
    simp only [Option.ite_none_right_eq_some, Option.some.injEq, List.all_eq_true] at h
    obtain ⟨-, hn, rfl⟩ := h
    refine ⟨intercalate_eq_scopePath _, ?_⟩
    rw [names, List.forall_mem_map]
    intro name hm
    rw [String.toList_ofList]
    exact colon_not_mem_of_isModuleName (hn name hm)
  · cases h

end Layout

namespace UnitRoot

/-- A module that names lead to from the crate can hold candidates: a unit mounts the module's file behind all
these names, and its entry points lead through them to every type in it. -/
structure Mountable (module : String) (names : List String) : Prop where
  mounts : ∀ file, mount? module file = some (mounting file names)
  exports : ∀ type support edition, Writable type → Writable support →
    entryPoints? (qualify module type) support edition =
      some (entryPoints (qualify module type) edition (pathTokens (names ++ [type])) (pathTokens [support]))

variable {module : String} {names : List String}

theorem mountable_scopePath (h : ∀ n ∈ names, Writable n) : Mountable (scopePath names) names where
  mounts file := by
    rw [mount?_eq_some_iff, segments_of_writable h]
    exact ⟨h, rfl⟩
  exports type support edition ht hs := by
    have hn : ∀ n ∈ names ++ [type], Writable n :=
      List.forall_mem_append.mpr ⟨h, List.forall_mem_singleton.mpr ht⟩
    have hs : ∀ n ∈ [support], Writable n := List.forall_mem_singleton.mpr hs
    rw [← scopePath_concat, entryPoints?_eq_some_iff, segments_of_writable hn, segments_of_writable hs]
    exact ⟨hn, hs, rfl⟩

/-- What is mounted at all tells the names that it is mounted behind. -/
theorem Mountable.writable (h : Mountable module names) : ∀ n ∈ names, Writable n := by
  obtain ⟨hn, he⟩ := mount?_eq_some_iff.mp (h.mounts "")
  rwa [← mounting_injective "" he] at hn

theorem isSome_separate?_scopePath {type support : String} (hn : ∀ n ∈ names, ':' ∉ n.toList) (ht : Writable type)
    (hs : Writable support) (file supportFile : String) (edition : Edition) :
    (separate? (qualify (scopePath names) type) (scopePath names) file support supportFile edition).isSome ↔
      ∀ n ∈ names.dropWhile (· = "crate"), Writable n := by
  have hnt : ∀ n ∈ names ++ [type], ':' ∉ n.toList :=
    List.forall_mem_append.mpr ⟨hn, List.forall_mem_singleton.mpr ht.colon_not_mem⟩
  have hs : ∀ n ∈ [support], Writable n := List.forall_mem_singleton.mpr hs
  rw [isSome_separate?_iff, ← scopePath_concat, segments_of_writable hs, segments_scopePath hn,
    segments_scopePath hnt, List.dropWhile_append]
  constructor
  · exact fun h => h.2.1
  · intro h
    refine ⟨hs, h, ?_⟩
    split
    · exact fun n hm => List.forall_mem_singleton.mpr ht n (List.dropWhile_sublist _ |>.mem hm)
    · exact List.forall_mem_append.mpr ⟨h, List.forall_mem_singleton.mpr ht⟩

/-- A file that the layout gives a module can be mounted there if and only if its folders and the file itself
are identifiers, none of them a word that cannot be raw. Leading folders of the crate's name are lost, and any
other name that is no such identifier leaves the candidates in the file without a root. -/
theorem mountable_iff {path : FilePath} (h : Layout.moduleOf? path = some module) :
    (Mountable module (Layout.names path) ↔ ∀ name ∈ Layout.names path, Writable name) ∧
    ∀ type support file supportFile edition, Writable type → Writable support →
      ((separate? (qualify module type) module file support supportFile edition).isSome ↔
        ∀ name ∈ (Layout.names path).dropWhile (· = "crate"), Writable name) := by
  obtain ⟨rfl, hc⟩ := Layout.names_of_moduleOf? h
  refine ⟨⟨Mountable.writable, mountable_scopePath⟩, ?_⟩
  intro type support file supportFile edition ht hs
  exact isSome_separate?_scopePath hc ht hs file supportFile edition

theorem mountable_type : Layout.moduleOf? (.ofText "gen/type.rs") = some "crate::gen::type" ∧
    Mountable "crate::gen::type" ["gen", "type"] ∧
    (separate? "crate::gen::type::Alpha" "crate::gen::type" "gen/type.rs" "selfgen_rt" "selfgen_rt.rs" .e2021).isSome := by
  have h : Layout.moduleOf? (.ofText "gen/type.rs") = some "crate::gen::type" := by decide +kernel
  have hn : Layout.names (.ofText "gen/type.rs") = ["gen", "type"] := by decide +kernel
  obtain ⟨hm, hs⟩ := mountable_iff h
  refine ⟨h, hn ▸ hm.mpr (by decide +kernel), ?_⟩
  exact (hs "Alpha" "selfgen_rt" _ _ _ (by decide +kernel) (by decide +kernel)).mpr (by decide +kernel)

/-- The layout takes the digit of `a².rs` for a part of a name. -/
theorem not_mountable_of_layout : ¬ ∀ (path : FilePath) (module : String),
    Layout.moduleOf? path = some module → Mountable module (Layout.names path) := by
  intro h
  have hp : Layout.moduleOf? (.ofText "a².rs") = some "crate::a²" := by decide +kernel
  have hw : ¬ ∀ name ∈ Layout.names (.ofText "a².rs"), Writable name := by decide +kernel
  exact hw (h _ _ hp).writable

/-- Of the words that the layout takes for names, `crate` is lost and the others cannot be written. -/
example : ["crate/a.rs", "self.rs", "_.rs"].map (fun path => (Layout.modulePath? path).map segments) =
    [some ["a"], some ["self"], some ["_"]] ∧ ¬ Writable "self" ∧ ¬ Writable "_" := by decide

end UnitRoot
end GeneratorHost
