import GeneratorHost.Proofs.Reading.Files
import GeneratorHost.Proofs.Token.Values
import GeneratorHost.Proofs.Unit.Written

/-! A file mounted as a module reads as the chain of modules that leads to it. -/
namespace GeneratorHost.UnitRoot
open Token Reader Grammar

variable {name file : String} {names : List String} {depth : Nat} {ts rest : List Token}

/-! ### Names -/

/-- A name as it is written, raw if it is reserved. -/
def spelled (name : String) : Bool × String := (reserved.contains name, name)

theorem isName_spelled (name : String) : IsName (spelled name) := by
  by_cases h : reserved.contains name
  · exact .inl h
  · exact .inr (mt List.contains_iff_mem.mpr h)

theorem forall_isName_spelled (names : List String) : ∀ name ∈ names.map spelled, IsName name :=
  List.forall_mem_map.mpr fun name _ => isName_spelled name

theorem written_eq (h : Writable name) : written name = nameToken (spelled name) := by
  have hraw : (!isNameText name) = reserved.contains name := by
    rw [Bool.eq_iff_iff, Bool.not_eq_true', ← Bool.not_eq_true, isNameText_iff h.1, not_not, List.contains_iff_mem]
  rw [written, hraw]
  rfl

theorem pathTokens_eq (h : ∀ n ∈ names, Writable n) :
    pathTokens names = .ident false "crate" default :: tail (names.map spelled) := by
  have hcolons : phrase "::" = colons := rfl
  rw [pathTokens, tail, List.flatMap_map, List.flatMap_map]
  refine congrArg _ (List.flatMap_congr fun n hn => ?_)
  rw [written_eq (h n hn), hcolons]

/-! ### Mounts -/

/-- A declaration is the chain of modules that names lead through, with a file mounted as the last of them. -/
inductive Mounts (file : String) : List String → Declaration → Prop
  | file {name spelling : String} {extent : Extent} (value : value? spelling.toList = some file.toList) :
    Mounts file [name] ⟨.module name (reserved.contains name) false, extent, [⟨⟨false, ["path"]⟩, "path", spelling⟩], [], []⟩
  | folder {name : String} {names : List String} {extent : Extent} {inside : Declaration} (h : Mounts file names inside) :
    Mounts file (name :: names) ⟨.module name (reserved.contains name) true, extent, [], [], [inside]⟩

theorem mounting_single (h : Writable name) (file : String) : mounting file [name] ++ rest =
    attributed [.ident false "path" default, .punct '=' false default, .literal (Text.quotedLiteral file.toList) default] ++
      (moduleFront (spelled name) ++ .punct ';' false default :: rest) := by
  rw [mounting, written_eq h]
  rfl

theorem mounting_folder (h : Writable name) (hn : names ≠ []) (file : String) : mounting file (name :: names) ++ rest =
    moduleFront (spelled name) ++ .group .brace (mounting file names) default :: rest := by
  rw [mounting_cons file name hn, written_eq h]
  rfl

theorem mounting_ne_nil (hn : names ≠ []) (file : String) : mounting file names ≠ [] := by
  cases names with
  | nil => exact absurd rfl hn
  | cons name names => cases names <;> exact List.cons_ne_nil _ _

/-- What is mounted begins with no attribute of what it stands in. -/
theorem mounting_outer (hn : names ≠ []) (file : String) (ts : List Token) :
    (isMark "#" (mounting file names ++ ts) && isMark "!" (skip (mounting file names ++ ts))) = false := by
  cases names with
  | nil => exact absurd rfl hn
  | cons name names => cases names <;> rfl

theorem declares_mounting (hn : names ≠ []) (h : ∀ n ∈ names, Writable n) (hd : names.length ≤ depth + 1) (file : String)
    (rest : List Token) : Declares (item (grammar depth)) (mounting file names ++ rest) (Mounts file names) rest := by
  induction names generalizing depth rest with
  | nil => exact absurd rfl hn
  | cons name names ih =>
    obtain ⟨hname, hnames⟩ := List.forall_mem_cons.mp h
    by_cases he : names = []
    · subst he
      rw [mounting_single hname]
      exact declares_file (isName_spelled name) _ (fun _ => .file (value?_quotedLiteral _)) rest
    · obtain ⟨depth, rfl⟩ : ∃ k, depth = k + 1 := ⟨depth - 1, by
        have := List.length_pos_iff.mpr he
        rw [List.length_cons] at hd
        omega⟩
      have hi := ih he hnames (Nat.le_of_succ_le_succ hd) []
      rw [List.append_nil] at hi
      rw [mounting_folder hname he]
      have ho := mounting_outer he file []
      rw [List.append_nil] at ho
      exact declares_inline (isName_spelled name) ho (mounting_ne_nil he file) hi (fun _ _ => .folder) rest

theorem length_le_sizeAll_mounting (file : String) (names : List String) : names.length ≤ sizeAll (mounting file names) := by
  induction names with
  | nil => exact Nat.zero_le _
  | cons name names ih =>
    by_cases he : names = []
    · subst he
      have hmounting : mounting file [name] = phrase "#" ++ group .bracket (phrase "path =" ++ literal file) ++
          phrase "pub mod" ++ [written name] ++ phrase ";" := rfl
      have hmark : phrase "#" = [.punct '#' false default] := rfl
      rw [hmounting, hmark]
      exact Nat.le_add_right 1 _
    · have hmounting : mounting file (name :: names) = [.word "pub", .word "mod", written name, .group .brace (mounting file names) default] :=
        mounting_cons file name he
      rw [hmounting, List.length_cons]
      simp only [sizeAll, size, Token.word, written]
      omega

end GeneratorHost.UnitRoot
