import GeneratorHost.Proofs.Text.Lines
import GeneratorHost.Proofs.Text.Lossy
import GeneratorHost.Proofs.Unit.Restated
import GeneratorHost.Proofs.Unit.Sources

/-! The border in a root between the host's text and what is generated behind it. The text, with the line feed that
its last line may lack, has all bytes on the lines that are counted for it, and all bytes behind are on later lines. -/
namespace GeneratorHost

namespace Text

variable {s t : String}

/-- The line of a byte, counted from one: line feeds end lines. -/
def lineOfByte (bytes : List UInt8) (offset : Nat) : Nat := (bytes.take offset).count 10 + 1

/-- Whether the last line of a text has no line feed. -/
def isUnfinished (s : String) : Bool := s ≠ "" && !s.endsWith "\n"

/-- What the last line of a text lacks. -/
def completion (s : String) : String := if isUnfinished s then "\n" else ""

/-! ### Line feeds -/

theorem bytes_append (s t : String) : bytes (s ++ t) = bytes s ++ bytes t := by
  rw [bytes_eq, bytes_eq, bytes_eq, String.toList_append, List.flatMap_append]

private theorem ofNat_ne_feed {n : Nat} (hl : 10 < n) (hh : n < 256) : UInt8.ofNat n ≠ 10 := by
  intro h
  have hn := UInt8.toNat_ofNat_of_lt' hh
  rw [h] at hn
  exact absurd hn (by change 10 ≠ n; omega)

/-- Of the characters only the line feed has a byte that looks like one. -/
theorem count_utf8EncodeChar (c : Char) : (String.utf8EncodeChar c).count 10 = if c = '\n' then 1 else 0 := by
  by_cases hc : c = '\n'
  · subst hc
    rfl
  · have hv : c.val.toNat ≠ 10 := fun h => hc (Char.ext (UInt32.toNat_inj.mp h))
    rw [if_neg hc, List.count_eq_zero]
    unfold String.utf8EncodeChar
    generalize c.val.toNat = v at hv
    dsimp only
    split
    · rw [List.mem_singleton]
      intro h
      have hn := UInt8.toNat_ofNat_of_lt' (show v < 256 by omega)
      rw [← h] at hn
      exact hv hn.symm
    · intro h
      split at h
      · simp only [List.mem_cons, List.not_mem_nil, or_false] at h
        rcases h with h | h
        all_goals exact absurd h.symm (ofNat_ne_feed (by omega) (by omega))
      · split at h
        · simp only [List.mem_cons, List.not_mem_nil, or_false] at h
          rcases h with h | h | h
          all_goals exact absurd h.symm (ofNat_ne_feed (by omega) (by omega))
        · simp only [List.mem_cons, List.not_mem_nil, or_false] at h
          rcases h with h | h | h | h
          all_goals exact absurd h.symm (ofNat_ne_feed (by omega) (by omega))

theorem count_bytes (s : String) : (bytes s).count 10 = s.toList.count '\n' := by
  rw [bytes_eq]
  induction s.toList with
  | nil => rfl
  | cons c cs ih =>
    rw [List.flatMap_cons, List.count_append, count_utf8EncodeChar, ih, List.count_cons, Nat.add_comm]
    congr 1
    simp

theorem endsWith_feed_iff : s.endsWith "\n" ↔ ['\n'] <:+ s.toList := by
  have h := @String.Slice.endsWith_string_iff "\n" s.toSlice
  rwa [String.copy_toSlice] at h

/-- The last line is unfinished if something stands behind the last line feed. -/
theorem isUnfinished_iff (s : String) : isUnfinished s = true ↔ s.toList.rtakeWhile (· ≠ '\n') ≠ [] := by
  rw [isUnfinished, Bool.and_eq_true, Bool.not_eq_true', ← Bool.not_eq_true, endsWith_feed_iff, decide_eq_true_iff,
    Ne, Ne, ← String.toList_eq_nil_iff, List.rtakeWhile_eq_nil_iff]
  rcases List.eq_nil_or_concat' s.toList with h | ⟨front, c, h⟩
  · simp [h]
  · simp [h, @eq_comm _ c]

/-- A text has as many lines as line feeds, and one more if the last line has none. -/
theorem length_lines (s : String) : (lines s).length = s.toList.count '\n' + if isUnfinished s then 1 else 0 := by
  have hlen := length_splitChar '\n' s.toList
  obtain ⟨pieces, hp⟩ := exists_splitChar_last '\n' s.toList
  rw [hp, List.length_append, List.length_singleton, Nat.add_right_cancel_iff] at hlen
  rw [lines, hp]
  simp only [List.length_map, List.length_zipIdx, List.getLast?_concat, List.dropLast_concat, Option.some.injEq]
  by_cases hu : isUnfinished s
  · rw [if_pos hu, if_neg ((isUnfinished_iff s).mp hu), List.length_append, hlen]
    rfl
  · rw [if_neg hu, if_pos (not_not.mp (mt (isUnfinished_iff s).mpr hu)), hlen, Nat.add_zero]

/-! ### The border -/

theorem count_completion (s : String) : (s ++ completion s).toList.count '\n' = (lines s).length := by
  rw [length_lines, String.toList_append, List.count_append, completion]
  split <;> rfl

/-- A text whose last line is completed is empty or ends in a line feed. -/
theorem completed (s : String) : s ++ completion s = "" ∨ ['\n'] <:+ (s ++ completion s).toList := by
  rw [completion]
  by_cases hu : isUnfinished s = true
  · rw [if_pos hu, String.toList_append]
    exact .inr (List.suffix_append _ _)
  · rw [if_neg hu, String.append_empty, ← endsWith_feed_iff]
    rw [isUnfinished, Bool.and_eq_true, decide_eq_true_iff, Bool.not_eq_true', not_and, Bool.not_eq_false] at hu
    exact or_iff_not_imp_left.mpr hu

/-- The bytes in front of a line's beginning are those on the lines before. -/
theorem lineOfByte_le_iff {front : List UInt8} (h : front = [] ∨ [10] <:+ front) (behind : List UInt8) (offset : Nat) :
    lineOfByte (front ++ behind) offset ≤ front.count 10 ↔ offset < front.length := by
  rw [lineOfByte, Nat.succ_le_iff]
  constructor
  · contrapose!
    intro ho
    rw [List.take_append, List.take_of_length_le ho, List.count_append]
    exact Nat.le_add_right _ _
  · intro ho
    obtain ⟨lines, rfl⟩ := h.resolve_left (List.ne_nil_of_length_pos (Nat.zero_lt_of_lt ho))
    rw [List.length_append, List.length_singleton, Nat.lt_succ_iff] at ho
    rw [List.append_assoc, List.take_append_of_le_length ho, List.count_append, List.count_singleton_self,
      Nat.lt_succ_iff]
    exact (List.take_sublist _ _).count_le _

end Text

open Text

namespace UnitRoot

variable {name text support supportFile root : String} {edition : Edition}

/-- What a crate root mounts beside its own modules: the support module, unless it declares that. -/
def mounting? (text support supportFile : String) : Option String :=
  if declaresSupport text support then some ""
  else (mount? ("crate::" ++ support) supportFile).map fun ts => Token.textAll ts ++ "\n"

/-- Behind the text stand a line feed for a line that is not ended, a comment, the mounts and the functions. -/
theorem joined?_eq_some_iff : joined? name text support supportFile edition = some root ↔
    ∃ mounted exports, mounting? text support supportFile = some mounted ∧
      entryPoints? name support edition = some exports ∧
      root = text ++ (if text.endsWith "\n" then "" else "\n") ++ "\n// Generated by selfgen.\n" ++ mounted ++
        Token.textAll exports ++ "\n" := by
  by_cases hd : declaresSupport text support
  · simp [joined?, mounting?, hd, Option.bind_eq_some_iff, @eq_comm _ root]
  · simp [joined?, mounting?, hd, Option.bind_eq_some_iff, @eq_comm _ root]

/-- A crate root begins with its own text, whose last line is completed. -/
theorem exists_generated (h : joined? name text support supportFile edition = some root) :
    ∃ generated, root = text ++ completion text ++ generated := by
  obtain ⟨mounted, exports, -, -, hr⟩ := joined?_eq_some_iff.mp h
  have hc : ∃ front, text ++ (if text.endsWith "\n" then "" else "\n") = text ++ completion text ++ front := by
    rw [completion, isUnfinished]
    by_cases ht : text = ""
    · exact ⟨"\n", by subst ht; rfl⟩
    · refine ⟨"", ?_⟩
      cases text.endsWith "\n" <;> simp [ht]
  obtain ⟨front, hf⟩ := hc
  refine ⟨front ++ ("\n// Generated by selfgen.\n" ++ mounted ++ Token.textAll exports ++ "\n"), ?_⟩
  rw [hr, hf]
  simp only [String.append_assoc]

end UnitRoot

namespace UnitCompiler

variable {tree : SourceTree} {root : String}

/-- The bytes of a root's own text, whose last line is completed, are those on the lines that are counted for it. -/
theorem lineOfByte_lt_iff {generated : String} (h : root = tree.text ++ completion tree.text ++ generated)
    (offset : Nat) : lineOfByte (bytes root) offset ≤ (lines tree.text).length ↔
      offset < (tree.text ++ completion tree.text).utf8ByteSize := by
  have hfront : bytes (tree.text ++ completion tree.text) = [] ∨ [10] <:+ bytes (tree.text ++ completion tree.text) := by
    refine (completed tree.text).imp (fun he => by rw [he, bytes_eq]; rfl) fun ⟨front, hf⟩ => ⟨bytes (.ofList front), ?_⟩
    rw [bytes_eq, bytes_eq, ← hf, String.toList_ofList, List.flatMap_append]
    rfl
  rw [h, bytes_append, ← count_completion, ← count_bytes, lineOfByte_le_iff hfront, length_bytes]

/-- Every byte of a crate root's text, and the line feed that the text's last line may lack, is on a line that is
counted for the text, and every byte behind is on a later one. So a diagnostic in the root keeps its place and all else
if it is in front of that border and loses its place, and at most its message, if it is behind; the other diagnostics
stay as they are. There are as many as before, in the same order. -/
theorem border_exact {name support supportFile : String} {edition : Edition} (hr : tree.isCrateRoot)
    (h : UnitRoot.joined? name tree.text support supportFile edition = some root) :
    (∃ generated, root = tree.text ++ completion tree.text ++ generated) ∧
    (∀ offset, lineOfByte (bytes root) offset ≤ (lines tree.text).length ↔
      offset < (tree.text ++ completion tree.text).utf8ByteSize) ∧
    ∀ (candidate : String) (ds : List Diagnostic),
      List.Forall₂ (fun d e =>
          (∀ offset column, d.location? = some ⟨tree.path, lineOfByte (bytes root) offset, column⟩ →
            if offset < (tree.text ++ completion tree.text).utf8ByteSize then e = d
            else e = { d with message := e.message, location? := none }) ∧
          (¬ d.IsFrom tree.path ((lines tree.text).length + 1) → e = d))
        ds (ds.map (explain candidate (rootName tree) (firstGeneratedLine tree))) := by
  obtain ⟨generated, hg⟩ := UnitRoot.exists_generated h
  have hborder := lineOfByte_lt_iff hg
  refine ⟨⟨generated, hg⟩, hborder, fun candidate ds => ?_⟩
  rw [rootName, firstGeneratedLine, if_pos hr, if_pos hr, List.forall₂_map_right_iff, List.forall₂_same]
  refine fun d _ => ⟨fun offset column hl => ?_, explain_of_not_isFrom⟩
  have hfrom : d.IsFrom tree.path ((lines tree.text).length + 1) ↔
      ¬ offset < (tree.text ++ completion tree.text).utf8ByteSize := by
    rw [Diagnostic.isFrom_iff_of_some hl, ← hborder, not_le, Nat.succ_le_iff]
    exact and_iff_right rfl
  split
  · rename_i ho
    exact explain_of_not_isFrom fun hd => hfrom.mp hd ho
  · rename_i ho
    rw [explain_of_isFrom (hfrom.mpr ho)]

/-- A crate root whose last line has no line feed. -/
def unfinishedRoot : SourceTree := ⟨"lib.rs", "crate", "mod gen;\npub struct Alpha;", .e2021, _, rfl⟩

/-- The text has two lines and 26 bytes: an error at the line feed that completes it keeps its place, one at the next
byte, which is the first on line 3, loses it. -/
theorem border_exact_unfinished : ∃ root,
    UnitRoot.joined? "crate::Alpha" unfinishedRoot.text "selfgen_rt" "/unit/selfgen_rt.rs" .e2021 = some root ∧
    lineOfByte (bytes root) 26 ≤ 2 ∧ ¬ lineOfByte (bytes root) 27 ≤ 2 ∧
    ∀ d : Diagnostic, d.location? = some ⟨"lib.rs", lineOfByte (bytes root) 26, 18⟩ →
      [d].map (explain "crate::Alpha" (rootName unfinishedRoot) (firstGeneratedLine unfinishedRoot)) = [d] := by
  have hw : (UnitRoot.joined? "crate::Alpha" unfinishedRoot.text "selfgen_rt" "/unit/selfgen_rt.rs" .e2021).isSome :=
    UnitRoot.isSome_joined?_iff.mpr (by decide)
  obtain ⟨root, h⟩ := Option.isSome_iff_exists.mp hw
  obtain ⟨-, hborder, hexplain⟩ := @border_exact unfinishedRoot root _ _ _ _ rfl h
  have hlines : (lines unfinishedRoot.text).length = 2 := by decide
  have hsize : (unfinishedRoot.text ++ completion unfinishedRoot.text).utf8ByteSize = 27 := by
    rw [completion, if_pos ((isUnfinished_iff _).mpr (by decide))]
    rfl
  rw [hlines, hsize] at hborder
  refine ⟨root, h, (hborder 26).mpr (by decide), mt (hborder 27).mp (by decide), fun d hd => ?_⟩
  obtain ⟨hkept, -⟩ := List.forall₂_cons.mp (hexplain "crate::Alpha" [d]) |>.1
  have he := hkept 26 18 hd
  rw [hsize, if_pos (by decide)] at he
  exact congrArg (fun e => [e]) he

end UnitCompiler
end GeneratorHost
