import Mathlib.Data.List.DropRight
import Mathlib.Data.List.Infix
import Mathlib.Tactic.Common
import GeneratorHost.Text.FilePath
import GeneratorHost.Proofs.Text.Offsets

/-! Where paths lead to from a folder, and when they lead to one place from two folders. -/
namespace GeneratorHost

theorem PathPart.ofPiece_ne_root (piece : List Char) : ofPiece piece ≠ root := by
  unfold ofPiece
  split <;> exact nofun

namespace FilePath

variable {here there ps : FilePath} {path : String}

/-! ### Following a path -/

/-- Where a path leads to from a folder if nothing stands in its way. -/
def follow (here : FilePath) : FilePath → FilePath
  | [] => here
  | .root :: ps => follow [] ps
  | .current :: ps => follow here ps
  | .up :: ps => follow here.dropLast ps
  | .name cs :: ps => follow (here ++ [.name cs]) ps

/-- How many folders a relative path leads up before it leads down. -/
def climb : FilePath → Nat
  | [] => 0
  | .up :: ps => climb ps + 1
  | .name _ :: ps => climb ps - 1
  | .root :: ps | .current :: ps => climb ps

/-- What a relative path leads down to in the end. -/
def descent : FilePath → FilePath
  | [] => []
  | .name cs :: ps => if climb ps = 0 then .name cs :: descent ps else descent ps
  | .up :: ps | .root :: ps | .current :: ps => descent ps

/-- A path that does not begin at the root leads up and then down. -/
theorem follow_eq (h : .root ∉ ps) (here : FilePath) : follow here ps = here.rdrop (climb ps) ++ descent ps := by
  induction ps generalizing here with
  | nil => simp [follow, climb, descent]
  | cons p ps ih =>
    rw [List.mem_cons, not_or] at h
    cases p with
    | root => exact absurd rfl h.1
    | current => exact ih h.2 here
    | up =>
      rw [follow, ih h.2, climb, descent]
      congr 1
      simp only [List.rdrop, List.dropLast_eq_take, List.length_take, List.take_take]
      congr 1
      omega
    | name cs =>
      rw [follow, ih h.2, climb, descent]
      cases climb ps with
      | zero => simp
      | succ k => simp [List.rdrop_concat_succ]

/-- A path leads to one place from two folders. -/
def SamePlace (here there : FilePath) (path : String) : Prop := follow here (ofText path) = follow there (ofText path)

/-! ### Absolute paths -/

theorem isAbsolute_iff : isAbsolute path ↔ path.toList.head? = some '/' := by
  rw [isAbsolute, String.startsWith_string_iff, List.head?_eq_some_iff]
  exact exists_congr fun cs => eq_comm

theorem root_not_mem_parts (pieces : List (List Char)) : .root ∉ parts pieces := by
  rw [parts, List.mem_map]
  rintro ⟨piece, -, h⟩
  exact PathPart.ofPiece_ne_root piece h

/-- The pieces of an absolute path. -/
theorem splitChar_of_isAbsolute (h : isAbsolute path) :
    ∃ piece pieces, Text.splitChar '/' path.toList = [] :: piece :: pieces := by
  obtain ⟨cs, hc⟩ := List.head?_eq_some_iff.mp (isAbsolute_iff.mp h)
  obtain ⟨piece, pieces, hs⟩ := Text.exists_splitChar '/' cs
  exact ⟨piece, pieces, by rw [hc, Text.splitChar, if_pos rfl, hs]⟩

/-- The pieces of a path that is not absolute. -/
theorem splitChar_of_not_isAbsolute (h : ¬ isAbsolute path) (hne : path ≠ "") :
    ∃ c piece pieces, Text.splitChar '/' path.toList = (c :: piece) :: pieces := by
  rw [isAbsolute_iff] at h
  cases hp : path.toList with
  | nil => exact absurd (String.toList_eq_nil_iff.mp hp) hne
  | cons c cs =>
    have hc : c ≠ '/' := by simpa [hp] using h
    obtain ⟨piece, pieces, hs⟩ := Text.exists_splitChar '/' cs
    exact ⟨c, piece, pieces, by rw [Text.splitChar, if_neg hc, hs]⟩

/-- An absolute path begins at the root. -/
theorem ofText_of_isAbsolute (h : isAbsolute path) : ∃ ps, .root ∉ ps ∧ ofText path = .root :: ps := by
  obtain ⟨piece, pieces, hs⟩ := splitChar_of_isAbsolute h
  refine ⟨_, root_not_mem_parts (piece :: pieces), ?_⟩
  unfold ofText
  rw [hs]
  rfl

/-- The parts of a path that is not absolute: one for its first piece, and what is behind that. -/
theorem ofText_of_not_isAbsolute {first : List Char} {rest : List (List Char)} (hf : first ≠ [])
    (hs : Text.splitChar '/' path.toList = first :: rest) : ∃ p, p ≠ .root ∧ ofText path = p :: parts rest := by
  unfold ofText
  rw [hs]
  split
  · rename_i h
    cases h
  · rename_i h
    cases h
    exact absurd rfl hf
  · rename_i h
    cases h
    exact ⟨.current, nofun, rfl⟩
  · rename_i h
    cases h
    exact ⟨_, PathPart.ofPiece_ne_root first, rfl⟩

theorem root_not_mem_ofText (h : ¬ isAbsolute path) : .root ∉ ofText path := by
  by_cases hne : path = ""
  · subst hne
    exact List.not_mem_nil
  · obtain ⟨c, piece, pieces, hs⟩ := splitChar_of_not_isAbsolute h hne
    obtain ⟨p, hp, ho⟩ := ofText_of_not_isAbsolute (List.cons_ne_nil _ _) hs
    rw [ho, List.mem_cons, not_or]
    exact ⟨hp.symm, root_not_mem_parts _⟩

/-- A path leads to one place from two folders if it is absolute, or leads up out of where they differ. -/
theorem samePlace_iff : SamePlace here there path ↔
    isAbsolute path ∨ here.rdrop (climb (ofText path)) = there.rdrop (climb (ofText path)) := by
  unfold SamePlace
  by_cases h : isAbsolute path
  · obtain ⟨ps, -, ho⟩ := ofText_of_isAbsolute h
    simp [h, ho, follow]
  · have hr := root_not_mem_ofText h
    simp [h, follow_eq hr]

/-- Only an absolute path leads to one place from everywhere. -/
theorem forall_samePlace_iff : (∀ there, SamePlace here there path) ↔ isAbsolute path := by
  constructor
  · intro h
    refine (samePlace_iff.mp (h (here ++ List.replicate (climb (ofText path) + 1) .up))).resolve_right fun he => ?_
    have hl := congrArg List.length he
    simp only [List.rdrop, List.length_take, List.length_append, List.length_replicate] at hl
    omega
  · exact fun h there => samePlace_iff.mpr (.inl h)

theorem ofText_eq_nil_iff : ofText path = [] ↔ path = "" := by
  constructor
  · intro h
    by_contra hne
    by_cases ha : isAbsolute path
    · obtain ⟨ps, -, ho⟩ := ofText_of_isAbsolute ha
      exact List.cons_ne_nil _ _ (ho.symm.trans h)
    · obtain ⟨c, piece, pieces, hs⟩ := splitChar_of_not_isAbsolute ha hne
      obtain ⟨p, -, ho⟩ := ofText_of_not_isAbsolute (List.cons_ne_nil _ _) hs
      exact List.cons_ne_nil _ _ (ho.symm.trans h)
  · rintro rfl
    rfl

/-! ### A name in a folder -/

/-- Pieces at the end of a path add their parts to it. -/
theorem ofText_append {path' : String} {first : List Char} {rest rest' : List (List Char)} {ps : FilePath}
    (h : Text.splitChar '/' path.toList = first :: rest) (h' : Text.splitChar '/' path'.toList = first :: rest')
    (hf : first = [] → rest ≠ [] ∧ rest' ≠ []) (hp : parts rest' = parts rest ++ ps) :
    ofText path' = ofText path ++ ps := by
  unfold ofText
  rw [h, h']
  split
  · contradiction
  · rename_i he
    cases he
    obtain ⟨hr, hr'⟩ := hf rfl
    simp [hr, hr', hp]
  · rename_i he
    cases he
    simp [hp]
  · rename_i he
    cases he
    simp [hp]

theorem parts_append (pieces pieces' : List (List Char)) :
    parts (pieces ++ pieces') = parts pieces ++ parts pieces' := by
  rw [parts, List.filter_append, List.map_append, parts, parts]

/-- A path whose first piece is a part has the parts of its pieces. -/
theorem ofText_eq_parts {first : List Char} {more : List (List Char)}
    (hp : Text.splitChar '/' path.toList = first :: more) (hn : ¬ isSkipped first) :
    ofText path = parts (first :: more) := by
  rw [isSkipped, Bool.or_eq_true, List.isEmpty_iff, decide_eq_true_iff, not_or] at hn
  unfold ofText
  rw [hp]
  split
  · contradiction
  · rename_i he
    exact absurd (List.cons.inj he).1 hn.1
  · rename_i he
    exact absurd (List.cons.inj he).1 hn.2
  · rename_i he
    cases he
    simp [parts, isSkipped, hn]

/-- A path behind a directory adds its parts to those of the directory. -/
theorem ofText_join_of_pieces (directory : String) {first : List Char} {more : List (List Char)}
    (hp : Text.splitChar '/' path.toList = first :: more) (hn : ¬ isSkipped first) :
    ofText (join directory path) = ofText directory ++ parts (first :: more) := by
  have ha : ¬ isAbsolute path := fun h => by
    obtain ⟨piece, pieces, hs⟩ := splitChar_of_isAbsolute h
    rw [hp] at hs
    rw [(List.cons.inj hs).1] at hn
    exact hn rfl
  unfold join
  rw [Bool.not_eq_true] at ha
  rw [ha, Bool.false_or]
  split
  · rename_i hd
    obtain rfl := of_decide_eq_true hd
    exact ofText_eq_parts hp hn
  · rename_i hd
    obtain ⟨head, rest, hdir⟩ := Text.exists_splitChar '/' directory.toList
    have hne : directory.toList ≠ [] := by simpa using hd
    split
    · rename_i he
      obtain ⟨before, hb⟩ : ['/'] <:+ directory.toList := by
        simpa using String.Slice.endsWith_string_iff.mp he
      obtain ⟨head, rest, hf⟩ := Text.exists_splitChar '/' before
      have hdir : Text.splitChar '/' directory.toList = head :: (rest ++ [[]]) := by
        rw [← hb, Text.splitChar_append, hf]
        rfl
      have hdir' : Text.splitChar '/' (directory ++ path).toList = head :: (rest ++ first :: more) := by
        rw [String.toList_append, ← hb, List.append_assoc, List.singleton_append, Text.splitChar_append, hf, hp]
        rfl
      refine ofText_append hdir hdir' (by simp) ?_
      rw [parts_append, parts_append]
      simp [parts, isSkipped]
    · have hdir' : Text.splitChar '/' (directory ++ "/" ++ path).toList = head :: (rest ++ first :: more) := by
        rw [String.toList_append, String.toList_append, List.append_assoc]
        change Text.splitChar '/' (directory.toList ++ '/' :: path.toList) = _
        rw [Text.splitChar_append, hdir, hp]
        rfl
      refine ofText_append hdir hdir' ?_ (parts_append rest _)
      rintro rfl
      refine ⟨?_, by simp⟩
      rintro rfl
      by_cases hab : isAbsolute directory
      · obtain ⟨piece, pieces, hs⟩ := splitChar_of_isAbsolute hab
        simp [hdir] at hs
      · obtain ⟨c, piece, pieces, hs⟩ := splitChar_of_not_isAbsolute hab (by simpa using hd)
        simp [hdir] at hs

/-- A plain name in a folder is one more part of the path. -/
theorem ofText_join (directory : String) {name : String} (hs : '/' ∉ name.toList) (hn : ¬ isSkipped name.toList)
    (hu : name.toList ≠ ['.', '.']) :
    ofText (join directory name) = ofText directory ++ [.name name.toList] := by
  rw [ofText_join_of_pieces directory (Text.splitChar_of_not_mem hs) hn]
  simp [parts, hn, PathPart.ofPiece, hu]

/-! ### Names -/

/-- The characters of a plain name: a path of its own that stays in its folder. -/
structure IsFileName (cs : List Char) : Prop where
  slash_not_mem : '/' ∉ cs
  not_isSkipped : ¬ isSkipped cs
  ne_up : cs ≠ ['.', '.']

theorem IsFileName.ofPiece {cs : List Char} (h : IsFileName cs) : PathPart.ofPiece cs = .name cs := if_neg h.ne_up

theorem map_name_injective : Function.Injective (List.map PathPart.name) :=
  List.map_injective_iff.mpr fun _ _ h => PathPart.name.inj h

theorem parts_of_forall_isFileName {pieces : List (List Char)} (h : ∀ cs ∈ pieces, IsFileName cs) :
    parts pieces = pieces.map .name := by
  rw [parts, List.filter_eq_self.mpr fun cs hc => by simp [(h cs hc).not_isSkipped]]
  exact List.map_congr_left fun cs hc => (h cs hc).ofPiece

theorem slash_not_mem_of_mem_splitChar {cs piece : List Char} (h : piece ∈ Text.splitChar '/' cs) : '/' ∉ piece := by
  induction cs generalizing piece with
  | nil =>
    obtain rfl := List.mem_singleton.mp h
    exact List.not_mem_nil
  | cons c cs ih =>
    by_cases hc : c = '/'
    · rw [Text.splitChar, if_pos hc, List.mem_cons] at h
      rcases h with rfl | h
      · exact List.not_mem_nil
      · exact ih h
    · obtain ⟨first, rest, hs⟩ := Text.exists_splitChar '/' cs
      rw [Text.splitChar, if_neg hc, hs, List.mem_cons] at h
      rw [hs] at ih
      rcases h with rfl | h
      · exact fun hm => (List.mem_cons.mp hm).elim (fun he => hc he.symm) (ih List.mem_cons_self)
      · exact ih (List.mem_cons_of_mem _ h)

/-- The names among the parts of a path are plain. -/
theorem isFileName_of_mem_ofText {cs : List Char} (h : .name cs ∈ ofText path) : IsFileName cs := by
  have hpiece {piece : List Char} (hm : piece ∈ Text.splitChar '/' path.toList) (hn : ¬ isSkipped piece)
      (he : PathPart.ofPiece piece = .name cs) : IsFileName cs := by
    unfold PathPart.ofPiece at he
    split at he
    · cases he
    · cases he
      exact ⟨slash_not_mem_of_mem_splitChar hm, hn, ‹_›⟩
  have hparts {pieces : List (List Char)} (hs : ∀ piece ∈ pieces, piece ∈ Text.splitChar '/' path.toList)
      (hm : .name cs ∈ parts pieces) : IsFileName cs := by
    obtain ⟨piece, hp, he⟩ := List.mem_map.mp hm
    rw [List.mem_filter, Bool.not_eq_true'] at hp
    exact hpiece (hs piece hp.1) (by simp [hp.2]) he
  unfold ofText at h
  split at h
  · cases h
  · rename_i rest hs
    have hr : ∀ piece ∈ rest, piece ∈ Text.splitChar '/' path.toList := fun piece hm => hs ▸ List.mem_cons_of_mem _ hm
    split at h
    · cases h
    · exact hparts hr ((List.mem_cons.mp h).resolve_left nofun)
  · rename_i rest hs
    exact hparts (fun piece hm => hs ▸ List.mem_cons_of_mem _ hm) ((List.mem_cons.mp h).resolve_left nofun)
  · rename_i first rest hne hnd hs
    rcases List.mem_cons.mp h with he | hm
    · refine hpiece (hs ▸ List.mem_cons_self) ?_ he.symm
      rw [isSkipped, Bool.or_eq_true, List.isEmpty_iff, decide_eq_true_iff, not_or]
      exact ⟨hne, hnd⟩
    · exact hparts (fun piece hm => hs ▸ List.mem_cons_of_mem _ hm) hm

/-- Plain names with slashes in between are the pieces of the path that they make. -/
theorem splitChar_intercalate {first : List Char} {more : List (List Char)}
    (h : ∀ cs ∈ first :: more, IsFileName cs) :
    Text.splitChar '/' ("/".intercalate ((first :: more).map String.ofList)).toList = first :: more := by
  induction more generalizing first with
  | nil =>
    rw [List.map_singleton, String.intercalate_singleton, String.toList_ofList]
    exact Text.splitChar_of_not_mem (h first List.mem_cons_self).slash_not_mem
  | cons second more ih =>
    have hi := ih fun cs hc => h cs (List.mem_cons_of_mem _ hc)
    have hf := Text.splitChar_of_not_mem (h first List.mem_cons_self).slash_not_mem
    rw [List.map_cons, List.map_cons, String.intercalate_cons_cons, ← List.map_cons, String.toList_append,
      String.toList_append, String.toList_ofList, List.append_assoc]
    change Text.splitChar '/' (first ++ '/' :: ("/".intercalate ((second :: more).map String.ofList)).toList) = _
    rw [Text.splitChar_append, hf, hi]
    rfl

/-- A path of plain names, alone and in a folder. -/
theorem ofText_intercalate {names : List (List Char)} (hne : names ≠ []) (h : ∀ cs ∈ names, IsFileName cs) :
    ofText ("/".intercalate (names.map String.ofList)) = names.map .name ∧
    ∀ directory, ofText (join directory ("/".intercalate (names.map String.ofList))) =
      ofText directory ++ names.map .name := by
  obtain ⟨first, more, rfl⟩ := List.exists_cons_of_ne_nil hne
  have hs := splitChar_intercalate h
  have hn := (h first List.mem_cons_self).not_isSkipped
  rw [← parts_of_forall_isFileName h]
  exact ⟨ofText_eq_parts hs hn, fun directory => ofText_join_of_pieces directory hs hn⟩

/-- A plain name, alone and in a folder. -/
theorem IsFileName.ofText {name : String} (h : IsFileName name.toList) :
    FilePath.ofText name = [.name name.toList] := by
  rw [ofText_eq_parts (Text.splitChar_of_not_mem h.slash_not_mem) h.not_isSkipped,
    parts_of_forall_isFileName (List.forall_mem_singleton.mpr h), List.map_singleton]

theorem IsFileName.ofText_join {name : String} (h : IsFileName name.toList) (directory : String) :
    FilePath.ofText (join directory name) = FilePath.ofText directory ++ [.name name.toList] :=
  FilePath.ofText_join directory h.slash_not_mem h.not_isSkipped h.ne_up

/-! ### The folder of a path -/

theorem dropSkipped_append (pieces : List (List Char)) (first : List Char) :
    dropSkipped (pieces ++ [first]) = pieces.dropWhile isSkipped ++ [first] := by
  induction pieces with
  | nil => rfl
  | cons piece pieces ih =>
    have hd : dropSkipped (piece :: (pieces ++ [first])) =
        if isSkipped piece then dropSkipped (pieces ++ [first]) else piece :: (pieces ++ [first]) := by
      rw [dropSkipped]
      simp
    rw [List.cons_append, hd, ih, List.dropWhile_cons]
    split <;> rfl

/-- The folder of a path by its pieces. -/
theorem parent?_eq {first : List Char} {rest : List (List Char)}
    (hs : Text.splitChar '/' path.toList = first :: rest) : parent? path =
      match rest.reverse.dropWhile isSkipped with
      | [] => if isAbsolute path || first.isEmpty then none else some ""
      | _ :: before =>
        if before.dropWhile isSkipped = [] ∧ first = [] then if isAbsolute path then some "/" else some ""
        else some ("/".intercalate ((first :: (before.dropWhile isSkipped).reverse).map String.ofList)) := by
  unfold parent?
  rw [hs, List.reverse_cons, dropSkipped_append]
  cases rest.reverse.dropWhile isSkipped with
  | nil => rfl
  | cons last before =>
    have hd := dropSkipped_append before first
    cases hb : before ++ [first] with
    | nil => simp at hb
    | cons piece pieces =>
      rw [hb] at hd
      simp only [List.cons_append, hb, hd]
      cases before.dropWhile isSkipped with
      | nil => cases first <;> simp
      | cons last before =>
        cases hb : before ++ [first] with
        | nil => simp at hb
        | cons =>
          simp only [List.cons_append, hb]
          rw [← hb]
          simp

/-- The folder of an absolute path is absolute. -/
theorem isAbsolute_of_parent? {folder : String} (h : isAbsolute path) (hf : parent? path = some folder) :
    isAbsolute folder := by
  obtain ⟨piece, pieces, hs⟩ := splitChar_of_isAbsolute h
  rw [parent?_eq hs, h] at hf
  split at hf
  · cases hf
  · rename_i last before _
    cases hb : before.dropWhile isSkipped with
    | nil =>
      rw [if_pos ⟨hb, rfl⟩] at hf
      cases hf
      exact isAbsolute_iff.mpr rfl
    | cons last before =>
      rw [hb, if_neg (by simp)] at hf
      cases hf
      rw [isAbsolute_iff, String.toList_intercalate]
      cases hr : (last :: before).reverse with
      | nil => simp at hr
      | cons => simp [List.intercalate]

/-- The folder of a path is unnamed if the path is a single part. -/
theorem parent?_eq_some_empty_iff :
    parent? path = some "" ↔ ¬ isAbsolute path ∧ (ofText path).length = 1 := by
  have he : ¬ isAbsolute "" := fun h => nomatch isAbsolute_iff.mp h
  by_cases h : isAbsolute path
  · exact iff_of_false (fun hf => he (isAbsolute_of_parent? h hf)) fun hn => hn.1 h
  · by_cases hne : path = ""
    · subst hne
      exact iff_of_false (fun h => nomatch h) fun hn => nomatch hn.2
    · obtain ⟨c, piece, pieces, hs⟩ := splitChar_of_not_isAbsolute h hne
      obtain ⟨p, -, ho⟩ := ofText_of_not_isAbsolute (List.cons_ne_nil _ _) hs
      have hp : (parts pieces).length = 0 ↔ pieces.reverse.dropWhile isSkipped = [] := by
        rw [List.dropWhile_eq_nil_iff, parts, List.length_map, List.length_eq_zero_iff, List.filter_eq_nil_iff]
        simp
      rw [ho, List.length_cons, Nat.add_eq_right, hp, parent?_eq hs, and_iff_right h]
      split
      · simp_all
      · rename_i last before hw
        rw [hw, if_neg (by simp)]
        refine iff_of_false (fun hf => ?_) (List.cons_ne_nil _ _)
        have hf := congrArg String.toList (Option.some.inj hf)
        rw [String.toList_intercalate] at hf
        cases hb : (before.dropWhile isSkipped).reverse <;> simp [List.intercalate, hb] at hf

end FilePath
end GeneratorHost
