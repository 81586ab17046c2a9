import Mathlib.Data.List.Infix
import GeneratorHost.Proofs.Token.Rounds
import GeneratorHost.Report.Log

/-! The comment that carries the diagnostics of a pass. Every end of a comment in them is taken
apart and no beginning is, so the comment is whole exactly if the diagnostics begin none. -/
namespace GeneratorHost

/-- A text is one block comment: its levels are closed at its last character and not before. -/
def IsBlockComment (text : String) : Prop := Token.blockCommentLength text.toList = some text.toList.length

instance : DecidablePred IsBlockComment := fun _ => inferInstanceAs (Decidable (_ = _))

theorem pair_prefix_cons_iff {a b c : Char} {cs : List Char} :
    [a, b] <+: c :: cs ↔ a = c ∧ cs.head? = some b := by
  rw [List.cons_prefix_cons]
  cases cs with
  | nil => simp
  | cons d cs => simp [List.cons_prefix_cons, eq_comm]

namespace Token

/-- A character that neither opens nor closes a level is stepped over. -/
theorem blockLength_cons {c : Char} {cs : List Char} (ho : ¬ ['/', '*'] <+: c :: cs)
    (hc : ¬ ['*', '/'] <+: c :: cs) (depth n : Nat) :
    blockLength depth n (c :: cs) = blockLength depth (n + 1) cs := by
  rw [pair_prefix_cons_iff] at ho hc
  rw [blockLength]
  · rintro rest rfl rfl
    exact ho ⟨rfl, rfl⟩
  · rintro rest rfl rfl
    exact hc ⟨rfl, rfl⟩

/-- Where nothing closes a level before the end, only an outermost level without another one in it
is closed there. -/
theorem blockLength_append_close {depth n : Nat} {body : List Char} (hd : 1 ≤ depth)
    (hb : ¬ ['*', '/'] <:+: body) :
    blockLength depth n (body ++ ['\n', '*', '/']) =
      if depth = 1 ∧ ¬ ['/', '*'] <:+: body then some (n + body.length + 3) else none := by
  fun_induction blockLength depth n body with
  | case1 depth n cs ih =>
    have hcs : ¬ ['*', '/'] <:+: cs := fun h => hb (h.trans (List.suffix_append ['/', '*'] cs).isInfix)
    have ho : ['/', '*'] <:+: '/' :: '*' :: cs := (List.prefix_append ['/', '*'] cs).isInfix
    rw [List.cons_append, List.cons_append, blockLength, ih (by omega) hcs, if_neg (by omega)]
    simp [ho]
  | case2 => exact absurd (List.prefix_append ['*', '/'] _).isInfix hb
  | case3 => exact absurd (List.prefix_append ['*', '/'] _).isInfix hb
  | case4 depth n c cs ho hc ih =>
    have hcs : ¬ ['*', '/'] <:+: cs := fun h => hb (h.trans (List.suffix_cons c cs).isInfix)
    have hho : ¬ ['/', '*'] <+: c :: cs := by
      rw [pair_prefix_cons_iff]
      rintro ⟨rfl, h⟩
      obtain ⟨cs', rfl⟩ := List.head?_eq_some_iff.mp h
      exact ho cs' rfl rfl
    have hhc : ¬ ['*', '/'] <+: c :: cs := fun h => hb h.isInfix
    have hhead (b : Char) (hn : b ≠ '\n') :
        (cs ++ ['\n', '*', '/']).head? = some b ↔ cs.head? = some b := by
      cases cs with
      | nil => simp [hn.symm]
      | cons d cs => simp
    have hin : ['/', '*'] <:+: c :: cs ↔ ['/', '*'] <:+: cs := by
      rw [List.infix_cons_iff, or_iff_right hho]
    rw [List.cons_append, blockLength_cons, ih hd hcs]
    · have hl : n + 1 + cs.length = n + (c :: cs).length := by
        rw [List.length_cons]
        omega
      simp only [hin, hl]
    · rwa [pair_prefix_cons_iff, hhead _ (by decide), ← pair_prefix_cons_iff]
    · rwa [pair_prefix_cons_iff, hhead _ (by decide), ← pair_prefix_cons_iff]
  | case5 depth n =>
    rw [List.nil_append, blockLength_cons (by decide) (by decide), blockLength]
    by_cases h : depth = 1
    · simp [h]
    · rw [if_neg (by omega), blockLength, if_neg (by tauto)]

/-! ### Lexing -/

/-- A text that begins with a plain block comment has no tokens if the comment is all of it, and
cannot be read if the comment does not end. -/
theorem ofChars?_comment {cs : List Char} {length? : Option Nat}
    (h : blockCommentLength ('/' :: '*' :: '\n' :: cs) = length?) :
    (length? = some (cs.length + 3) → ofChars? ('/' :: '*' :: '\n' :: cs) = some []) ∧
    (length? = none → ofChars? ('/' :: '*' :: '\n' :: cs) = none) := by
  have hr : ofChars? ('/' :: '*' :: '\n' :: cs) =
      readAll (cs.length + 5) [] [] ⟨'/' :: '*' :: '\n' :: cs, .origin⟩ := rfl
  have hb : blankLength ('/' :: '*' :: '\n' :: cs) = length?.getD 0 := by
    rw [← h]
    rfl
  constructor
  · rintro rfl
    have hs : (skipBlanks (cs.length + 4) ⟨'/' :: '*' :: '\n' :: cs, .origin⟩).rest = [] := by
      have ha : (Cursor.advance (cs.length + 3) ⟨'/' :: '*' :: '\n' :: cs, .origin⟩).rest = [] := by
        rw [Cursor.rest_advance]
        exact List.drop_eq_nil_of_le (Nat.le_refl _)
      rw [skipBlanks, hb, Option.getD_some]
      dsimp only
      rw [skipBlanks_of_blankLength_eq_zero, ha]
      rw [ha]
      rfl
    rw [hr, readAll, hs]
    rfl
  · rintro rfl
    rw [hr, readAll, skipBlanks_of_blankLength_eq_zero hb]
    rfl

end Token

/-! ### The comment of a log -/

namespace DiagnosticLog

theorem head?_openComments (cs : List Char) : (openComments cs).head? = cs.head? := by
  fun_cases openComments cs <;> rfl

/-- No end of a comment is left. -/
theorem close_not_infix_openComments (cs : List Char) : ¬ ['*', '/'] <:+: openComments cs := by
  fun_induction openComments cs with
  | case1 cs ih =>
    rw [List.infix_cons_iff, List.infix_cons_iff, List.infix_cons_iff, pair_prefix_cons_iff,
      pair_prefix_cons_iff, pair_prefix_cons_iff]
    simp [ih]
  | case2 c cs hc ih =>
    rw [List.infix_cons_iff, pair_prefix_cons_iff, head?_openComments]
    rintro (⟨rfl, h⟩ | h)
    · obtain ⟨cs', rfl⟩ := List.head?_eq_some_iff.mp h
      exact hc cs' rfl rfl
    · exact ih h
  | case3 => simp

/-- Beginnings of comments are left as they are. -/
theorem open_infix_openComments_iff (cs : List Char) :
    ['/', '*'] <:+: openComments cs ↔ ['/', '*'] <:+: cs := by
  fun_induction openComments cs with
  | case1 cs ih =>
    simp only [List.infix_cons_iff, pair_prefix_cons_iff, head?_openComments, ih]
    simp
  | case2 c cs hc ih =>
    rw [List.infix_cons_iff, List.infix_cons_iff, pair_prefix_cons_iff, pair_prefix_cons_iff,
      head?_openComments, ih]
  | case3 => exact Iff.rfl

theorem comment_toList (text : String) :
    (comment text).toList = '/' :: '*' :: '\n' :: (openComments text.toList ++ ['\n', '*', '/']) := by
  simp [comment]

/-- The comment ends at its end, unless the text begins another one: then it does not end. -/
theorem blockCommentLength_comment (text : String) :
    Token.blockCommentLength (comment text).toList =
      if ['/', '*'] <:+: text.toList then none else some (comment text).toList.length := by
  have hn : ¬ ['*', '/'] <:+: '\n' :: openComments text.toList := by
    rw [List.infix_cons_iff, pair_prefix_cons_iff]
    simp [close_not_infix_openComments]
  have ho : ['/', '*'] <:+: '\n' :: openComments text.toList ↔ ['/', '*'] <:+: text.toList := by
    rw [List.infix_cons_iff, pair_prefix_cons_iff, open_infix_openComments_iff]
    simp
  rw [comment_toList, Token.blockCommentLength, ← List.cons_append,
    Token.blockLength_append_close (Nat.le_refl 1) hn]
  by_cases h : ['/', '*'] <:+: text.toList
  · rw [if_pos h, if_neg fun hc => hc.2 (ho.mpr h)]
  · rw [if_neg h, if_pos ⟨rfl, fun hc => h (ho.mp hc)⟩]
    simp only [List.length_append, List.length_cons, List.length_nil, Option.some.injEq]
    omega

/-- The comment of a log is one block comment, and lexes to no tokens, exactly if the text begins no
comment; one that it begins is never closed, and then the comment cannot be lexed at all. -/
theorem isBlockComment_comment_iff (text : String) :
    (IsBlockComment (comment text) ↔ ¬ ['/', '*'] <:+: text.toList) ∧
    Token.ofText? (comment text) = if ['/', '*'] <:+: text.toList then none else some [] := by
  have hb := blockCommentLength_comment text
  constructor
  · rw [IsBlockComment, hb]
    split <;> simp_all
  · rw [comment_toList] at hb
    obtain ⟨hs, hn⟩ := Token.ofChars?_comment hb
    rw [Token.ofText?, comment_toList]
    split
    · exact hn (if_pos ‹_›)
    · exact hs (if_neg ‹_›)

/-- A message with a pattern of file names begins a comment. -/
theorem not_isBlockComment_comment : ¬ ∀ text, IsBlockComment (comment text) ∧ Token.ofText? (comment text) = some [] := by
  intro h
  have hc : ¬ IsBlockComment (comment "Error From crate::gen::Alpha\nno file matches assets/*.txt\n") := by
    decide +kernel
  exact hc (h _).1

end DiagnosticLog
end GeneratorHost
