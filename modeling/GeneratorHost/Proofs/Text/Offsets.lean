import Mathlib.Tactic.Common
import GeneratorHost.Host.SourceTree

/-! Byte offsets of the places in a text, and of the same places in that text with more in front of it. -/
namespace GeneratorHost

namespace Text

@[simp] theorem byteCount_append (cs ds : List Char) : byteCount (cs ++ ds) = byteCount cs + byteCount ds := by
  induction cs with
  | nil => simp [byteCount]
  | cons c cs ih => simp [byteCount, ih, Nat.add_assoc]

@[simp] theorem byteCount_eq_zero_iff {cs : List Char} : byteCount cs = 0 ↔ cs = [] := by
  cases cs with
  | nil => simp [byteCount]
  | cons c cs =>
    have := c.utf8Size_pos
    simp only [byteCount, reduceCtorEq, iff_false]
    omega

/-- A character in front adds its own bytes, of which there is one at least. -/
private theorem exists_byteCount_cons (c : Char) (cs : List Char) :
    ∃ n, byteCount (c :: cs) = n + 1 ∧ c.utf8Size ≤ n + 1 ∧ n + 1 - c.utf8Size = byteCount cs := by
  have := c.utf8Size_pos
  exact ⟨c.utf8Size + byteCount cs - 1, by rw [byteCount]; omega, by omega, by omega⟩

theorem dropBytes?_byteCount (cs ds : List Char) : dropBytes? (byteCount cs) (cs ++ ds) = some ds := by
  induction cs with
  | nil => simp [byteCount, dropBytes?]
  | cons c cs ih =>
    obtain ⟨n, hn, hle, hr⟩ := exists_byteCount_cons c cs
    rw [hn, List.cons_append, dropBytes?, if_pos hle, hr, ih]

theorem takeBytes?_byteCount (cs ds : List Char) : takeBytes? (byteCount cs) (cs ++ ds) = some cs := by
  induction cs with
  | nil => simp [byteCount, takeBytes?]
  | cons c cs ih =>
    obtain ⟨n, hn, hle, hr⟩ := exists_byteCount_cons c cs
    rw [hn, List.cons_append, takeBytes?, if_pos hle, hr, ih, Option.map_some]

theorem exists_splitChar (separator : Char) (cs : List Char) :
    ∃ piece pieces, splitChar separator cs = piece :: pieces := by
  cases cs with
  | nil => exact ⟨[], [], rfl⟩
  | cons c cs =>
    rw [splitChar]
    split
    · exact ⟨_, _, rfl⟩
    · split <;> exact ⟨_, _, rfl⟩

/-- A separator cuts a text in two. -/
theorem splitChar_append (separator : Char) (before behind : List Char) :
    splitChar separator (before ++ separator :: behind) =
      splitChar separator before ++ splitChar separator behind := by
  induction before with
  | nil => simp [splitChar]
  | cons c before ih =>
    rw [List.cons_append, splitChar, splitChar, ih]
    obtain ⟨piece, pieces, hs⟩ := exists_splitChar separator before
    rw [hs]
    split <;> rfl

theorem splitChar_of_not_mem {separator : Char} {cs : List Char} (h : separator ∉ cs) :
    splitChar separator cs = [cs] := by
  induction cs with
  | nil => rfl
  | cons c cs ih =>
    rw [List.mem_cons, not_or] at h
    rw [splitChar, if_neg (Ne.symm h.1), ih h.2]

end Text

namespace Position

theorem afterAll_cons (p : Position) (c : Char) (cs : List Char) : p.afterAll (c :: cs) = (p.after c).afterAll cs := rfl

theorem afterAll_of_not_mem {cs : List Char} (h : '\n' ∉ cs) (line column : Nat) :
    (⟨line, column⟩ : Position).afterAll cs = ⟨line, column + cs.length⟩ := by
  induction cs generalizing column with
  | nil => rfl
  | cons c cs ih =>
    rw [List.mem_cons, not_or] at h
    rw [afterAll_cons, after, if_neg (Ne.symm h.1), ih h.2, List.length_cons, Nat.add_right_comm]
    rfl

/-- Behind a line feed it makes no difference where in its line a text begins. -/
theorem afterAll_of_mem {cs : List Char} (h : '\n' ∈ cs) (line column column' : Nat) :
    (⟨line, column⟩ : Position).afterAll cs = (⟨line, column'⟩ : Position).afterAll cs := by
  induction cs generalizing column column' with
  | nil => cases h
  | cons c cs ih =>
    rw [afterAll_cons, afterAll_cons]
    by_cases hc : c = '\n'
    · simp only [after, hc, if_true]
    · simp only [after, hc, if_false]
      exact ih ((List.mem_cons.mp h).resolve_left (Ne.symm hc)) _ _

theorem afterAll_line_add (cs : List Char) (line column n : Nat) :
    (⟨line + n, column⟩ : Position).afterAll cs =
      ⟨((⟨line, column⟩ : Position).afterAll cs).line + n, ((⟨line, column⟩ : Position).afterAll cs).column⟩ := by
  induction cs generalizing line column with
  | nil => rfl
  | cons c cs ih =>
    rw [afterAll_cons, afterAll_cons]
    by_cases hc : c = '\n'
    · simp only [after, hc, if_true, Nat.add_right_comm line n 1, ih]
    · simp only [after, hc, if_false, ih]

theorem le_line_afterAll (cs : List Char) (p : Position) : p.line ≤ (p.afterAll cs).line := by
  induction cs generalizing p with
  | nil => exact Nat.le_refl _
  | cons c cs ih =>
    refine Nat.le_trans ?_ (ih (p.after c))
    unfold after
    split <;> simp

theorem lt_line_afterAll {cs : List Char} (h : '\n' ∈ cs) (p : Position) : p.line < (p.afterAll cs).line := by
  induction cs generalizing p with
  | nil => cases h
  | cons c cs ih =>
    rw [afterAll_cons]
    by_cases hc : c = '\n'
    · refine Nat.lt_of_lt_of_le ?_ (le_line_afterAll cs _)
      simp [after, hc]
    · have := ih ((List.mem_cons.mp h).resolve_left (Ne.symm hc)) (p.after c)
      simpa [after, hc] using this

end Position

namespace TextLine
open Text

/-- The byte offset of a place in the lines of a text, counted from a byte on. -/
def offsetIn (start : Nat) (cs : List Char) (p : Position) : Option Nat :=
  (place start (splitChar '\n' cs))[p.line - 1]?.map fun line => line.start + byteCount (line.chars.take p.column)

theorem offsetIn_origin (start : Nat) (cs : List Char) : offsetIn start cs .origin = some start := by
  obtain ⟨piece, pieces, hs⟩ := exists_splitChar '\n' cs
  simp [offsetIn, hs, place, Position.origin, byteCount]

theorem offsetIn_feed (start line column : Nat) (cs : List Char) :
    offsetIn start ('\n' :: cs) ⟨line + 2, column⟩ = offsetIn (start + 1) cs ⟨line + 1, column⟩ := by
  simp [offsetIn, splitChar, place, byteCount]

theorem offsetIn_first {c : Char} (hc : c ≠ '\n') (start column : Nat) (cs : List Char) :
    offsetIn start (c :: cs) ⟨1, column + 1⟩ = offsetIn (start + c.utf8Size) cs ⟨1, column⟩ := by
  obtain ⟨piece, pieces, hs⟩ := exists_splitChar '\n' cs
  simp [offsetIn, splitChar, hc, hs, place, byteCount, Nat.add_assoc]

theorem offsetIn_further {c : Char} (hc : c ≠ '\n') (start line column : Nat) (cs : List Char) :
    offsetIn start (c :: cs) ⟨line + 2, column⟩ = offsetIn (start + c.utf8Size) cs ⟨line + 2, column⟩ := by
  obtain ⟨piece, pieces, hs⟩ := exists_splitChar '\n' cs
  simp [offsetIn, splitChar, hc, hs, place, byteCount, Nat.add_assoc]

/-- One more character in front moves a place by its bytes. -/
theorem offsetIn_cons (start : Nat) (c : Char) (cs ds : List Char) :
    offsetIn start (c :: cs) (Position.origin.afterAll (c :: ds)) =
      offsetIn (start + c.utf8Size) cs (Position.origin.afterAll ds) := by
  by_cases hc : c = '\n'
  · subst hc
    have hs : Position.origin.afterAll ('\n' :: ds) = _ := Position.afterAll_line_add ds 1 0 1
    obtain ⟨line, hl⟩ := Nat.exists_eq_add_of_le' (Position.le_line_afterAll ds .origin)
    rw [hs]
    change offsetIn start _ ⟨(Position.origin.afterAll ds).line + 1, (Position.origin.afterAll ds).column⟩ = _
    generalize Position.origin.afterAll ds = p at hl
    obtain ⟨_, column⟩ := p
    obtain rfl : _ = line + 1 := hl
    exact offsetIn_feed start line column _
  have hs : Position.origin.afterAll (c :: ds) = (⟨1, 1⟩ : Position).afterAll ds := by
    rw [Position.afterAll_cons, Position.after, if_neg hc]
    rfl
  rw [hs]
  by_cases hm : '\n' ∈ ds
  · have hlt := Position.lt_line_afterAll hm .origin
    rw [Position.afterAll_of_mem hm 1 1 0]
    change offsetIn start _ (Position.origin.afterAll ds) = _
    generalize Position.origin.afterAll ds = p at hlt
    obtain ⟨_, column⟩ := p
    obtain ⟨line, rfl⟩ := Nat.exists_eq_add_of_le' hlt
    exact offsetIn_further hc start line column _
  · rw [Position.afterAll_of_not_mem hm, Position.origin, Position.afterAll_of_not_mem hm, Nat.zero_add,
      Nat.add_comm 1]
    exact offsetIn_first hc start ds.length _

/-- The place behind the characters at the front of a text has their bytes before it. -/
theorem offsetIn_afterAll (start : Nat) (cs rest : List Char) :
    offsetIn start (cs ++ rest) (Position.origin.afterAll cs) = some (start + byteCount cs) := by
  induction cs generalizing start with
  | nil => exact offsetIn_origin start rest
  | cons c cs ih => rw [List.cons_append, offsetIn_cons, ih, byteCount, Nat.add_assoc]

end TextLine

namespace SourceTree
open Text

theorem offset_eq_offsetIn (t : SourceTree) {p : Position} (hp : 1 ≤ p.line) :
    t.offset p = (TextLine.offsetIn 0 t.text.toList p).getD t.byteLength := by
  obtain ⟨line, column⟩ := p
  obtain ⟨n, rfl⟩ := Nat.exists_eq_add_of_le' hp
  simp only [offset, TextLine.offsetIn, t.lines_eq, TextLine.ofText, List.getElem?_toArray, Nat.add_sub_cancel]
  split <;> simp_all

theorem offset_afterAll (t : SourceTree) (before rest : List Char) (h : t.text.toList = before ++ rest) :
    t.offset (Position.origin.afterAll before) = byteCount before := by
  rw [t.offset_eq_offsetIn (Position.le_line_afterAll before .origin), h, TextLine.offsetIn_afterAll, Nat.zero_add,
    Option.getD_some]

/-- A place in the first line stands behind as many characters of the line as it was counted behind. -/
private theorem offset_afterAll_of_not_mem (t : SourceTree) {line before rest : List Char}
    (h : t.text.toList = line ++ rest) (hs : '\n' ∉ line) (hm : '\n' ∉ before) (hl : before.length ≤ line.length) :
    t.offset (Position.origin.afterAll before) = byteCount (line.take before.length) := by
  have hn : '\n' ∉ line.take before.length := fun hn => hs (List.mem_of_mem_take hn)
  have he : Position.origin.afterAll before = Position.origin.afterAll (line.take before.length) := by
    rw [Position.origin, Position.afterAll_of_not_mem hm, Position.afterAll_of_not_mem hn, List.length_take,
      Nat.min_eq_left hl]
  rw [he]
  refine t.offset_afterAll _ (line.drop before.length ++ rest) ?_
  rw [h, ← List.append_assoc, List.take_append_drop]

/-- A place that was counted without the characters at the front of the first line is found again behind that line
alone. -/
theorem offset_afterAll_eq_iff (t : SourceTree) {skipped before rest : List Char}
    (h : t.text.toList = skipped ++ before ++ rest) (hs : '\n' ∉ skipped) :
    t.offset (Position.origin.afterAll before) = byteCount (skipped ++ before) ↔ skipped = [] ∨ '\n' ∈ before := by
  by_cases hm : '\n' ∈ before
  · have he : Position.origin.afterAll before = Position.origin.afterAll (skipped ++ before) := by
      rw [Position.afterAll, Position.afterAll, List.foldl_append]
      change _ = Position.afterAll (Position.afterAll ⟨1, 0⟩ skipped) before
      rw [Position.afterAll_of_not_mem hs]
      exact Position.afterAll_of_mem hm _ _ _
    rw [he, t.offset_afterAll _ _ h]
    simp [hm]
  · have hl : before.length ≤ (skipped ++ before).length := by
      rw [List.length_append]
      exact Nat.le_add_left _ _
    have hn : '\n' ∉ skipped ++ before := fun hn => (List.mem_append.mp hn).elim hs hm
    -- what is left behind that many characters has as many bytes as are missing
    have hb := congrArg byteCount (List.take_append_drop before.length (skipped ++ before))
    rw [byteCount_append] at hb
    have hz : byteCount ((skipped ++ before).drop before.length) = 0 ↔ skipped = [] := by
      rw [byteCount_eq_zero_iff, List.drop_eq_nil_iff, List.length_append, ← List.length_eq_zero_iff]
      omega
    rw [t.offset_afterAll_of_not_mem h hn hm hl, ← hz]
    simp only [hm, or_false]
    omega

/-- So are both ends of a part of the text, if it begins behind that line. -/
theorem range_eq_iff (t : SourceTree) {skipped before source rest : List Char}
    (h : t.text.toList = skipped ++ (before ++ source) ++ rest) (hs : '\n' ∉ skipped) :
    (t.offset (Position.origin.afterAll before) = byteCount (skipped ++ before) ∧
      t.offset (Position.origin.afterAll (before ++ source)) = byteCount (skipped ++ before ++ source)) ↔
      skipped = [] ∨ '\n' ∈ before := by
  have hb : t.text.toList = skipped ++ before ++ (source ++ rest) := by simp [h]
  rw [t.offset_afterAll_eq_iff hb hs, List.append_assoc, t.offset_afterAll_eq_iff h hs, List.mem_append]
  exact and_iff_left_of_imp fun h => h.imp_right .inl

theorem slice_byteCount (t : SourceTree) {before source rest : List Char}
    (h : t.text.toList = before ++ (source ++ rest)) :
    t.slice (byteCount before) (byteCount (before ++ source)) = String.ofList source := by
  rw [slice, byteCount_append, if_pos (Nat.le_add_right _ _), Nat.add_sub_cancel_left, h, dropBytes?_byteCount,
    Option.bind_some, takeBytes?_byteCount]

end SourceTree
end GeneratorHost
