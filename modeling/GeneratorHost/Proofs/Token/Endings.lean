import GeneratorHost.Proofs.Token.Printed

/-! Texts that end no block comment. Tokens are printed with such a text if no slash is in their names and marks, and no
literal has the end of a comment in it. -/
namespace GeneratorHost.Token
open Text

variable {cs more : List Char} {t : Token} {ts ts' : List Token}

/-- An end of a comment is in one of two texts, or between them. -/
theorem ends_append (h : "*/".toList <:+: cs ++ more) :
    "*/".toList <:+: cs ∨ "*/".toList <:+: more ∨ cs.getLast? = some '*' ∧ more.head? = some '/' := by
  obtain ⟨front, behind, he⟩ := h
  rw [List.append_assoc, List.append_eq_append_iff] at he
  obtain ⟨own, rfl, he⟩ | ⟨own, -, rfl⟩ := he
  · cases own with
    | nil => exact .inr (.inl ⟨[], behind, he⟩)
    | cons c own =>
      cases own with
      | nil =>
        cases he
        exact .inr (.inr ⟨List.getLast?_concat, rfl⟩)
      | cons d own =>
        cases he
        exact .inl ⟨front, own, List.append_assoc _ _ _⟩
  · exact .inr (.inl ⟨own, behind, List.append_assoc _ _ _⟩)

/-- A text that ends no block comment, not even behind a star. -/
structure LeavesOpen (cs : List Char) : Prop where
  inside : ¬ "*/".toList <:+: cs
  front : cs.head? ≠ some '/'

theorem LeavesOpen.of_not_mem (h : '/' ∉ cs) : LeavesOpen cs where
  inside hi := h (hi.subset (by decide))
  front hf := h (List.mem_of_mem_head? hf)

theorem LeavesOpen.append (h : LeavesOpen cs) (hm : LeavesOpen more) : LeavesOpen (cs ++ more) where
  inside hi := (ends_append hi).elim h.inside fun hi => hi.elim hm.inside fun hi => hm.front hi.2
  front := by
    cases cs with
    | nil => exact hm.front
    | cons c cs => exact h.front

/-! ### Tokens -/

mutual

/-- Whether a token has no slash in its names and marks, and its literals leave comments open. -/
def OpenText : Token → Prop
  | .ident _ name _ => '/' ∉ name.toList
  | .punct c _ _ => c ≠ '/'
  | .literal spelling _ => LeavesOpen spelling.toList
  | .group _ content _ => OpenTexts content

def OpenTexts : List Token → Prop
  | [] => True
  | t :: ts => t.OpenText ∧ OpenTexts ts

end

theorem openTexts_append : OpenTexts (ts ++ ts') ↔ OpenTexts ts ∧ OpenTexts ts' := by
  induction ts with
  | nil => simp [OpenTexts]
  | cons t ts ih => rw [List.cons_append, OpenTexts, OpenTexts, ih, and_assoc]

theorem leavesOpen_openingText (delimiter : Delimiter) : LeavesOpen (openingText delimiter) :=
  .of_not_mem (by cases delimiter <;> decide)

theorem leavesOpen_closingText (delimiter : Delimiter) (content : List Token) : LeavesOpen (closingText delimiter content) :=
  .of_not_mem (by fun_cases closingText delimiter content <;> decide)

mutual

theorem leavesOpen_text (t : Token) (h : t.OpenText) : LeavesOpen t.text.toList := by
  cases t with
  | ident raw name extent =>
    rw [text]
    cases raw with
    | false => exact .of_not_mem h
    | true =>
      rw [if_pos rfl, String.toList_append]
      exact .append (.of_not_mem (by decide)) (.of_not_mem h)
  | punct c joint extent =>
    rw [text, Char.toString, String.toList_singleton]
    exact .of_not_mem (mt List.mem_singleton.mp (Ne.symm h))
  | literal spelling extent => exact h
  | group delimiter content extent =>
    rw [text_group]
    exact (leavesOpen_openingText delimiter).append ((leavesOpen_textAll content h).append (leavesOpen_closingText delimiter content))

/-- Tokens are printed with no end of a comment. -/
theorem leavesOpen_textAll (ts : List Token) (h : OpenTexts ts) : LeavesOpen (textAll ts).toList := by
  cases ts with
  | nil => exact .of_not_mem (by decide)
  | cons t ts =>
    have ht := leavesOpen_text t h.1
    have hs := leavesOpen_textAll ts h.2
    cases hj : t.isJoint with
    | false =>
      have hblank : LeavesOpen [' '] := .of_not_mem (by decide)
      have htext := textAll_cons hj ts []
      rw [List.append_nil] at htext
      rw [htext]
      cases ts with
      | nil => exact ht.append hs
      | cons u us =>
        rw [gap, List.append_nil]
        exact ht.append (hblank.append hs)
    | true =>
      cases t with
      | punct c joint extent =>
        obtain rfl : joint = true := hj
        cases ts with
        | nil => exact ht
        | cons u us =>
          have htext := textAll_joint c u us extent []
          rw [List.append_nil, List.append_nil] at htext
          rw [htext]
          have hmark : LeavesOpen [c] := .of_not_mem (mt List.mem_singleton.mp (Ne.symm h.1))
          exact hmark.append hs
      | _ => cases hj

end

/-! ### Literals -/

/-- What a character is written as: itself, or with neither stars nor slashes. -/
def Escapes (piece : List Char) (c : Char) : Prop := piece = [c] ∨ piece ≠ [] ∧ '*' ∉ piece ∧ '/' ∉ piece

theorem isHexDigit_of_mem_toDigits {n : Nat} : ∀ d ∈ Nat.toDigits 16 n, isHexDigit d := by
  induction n using Nat.strongRecOn with
  | ind n ih =>
    rw [Nat.toDigits_eq_if (by decide)]
    split
    · rename_i hn
      exact List.forall_mem_singleton.mpr (isHexDigit_digitChar hn).1
    · rename_i hn
      intro d hd
      rw [List.mem_append, List.mem_singleton] at hd
      rcases hd with hd | rfl
      · exact ih (n / 16) (by omega) d hd
      · exact (isHexDigit_digitChar (Nat.mod_lt _ (by decide))).1

theorem escapes_escapeChar (c : Char) : Escapes (escapeChar c) c := by
  unfold escapeChar
  split
  · exact .inr (by decide)
  split
  · exact .inr (by decide)
  split
  · exact .inr (by decide)
  split
  · exact .inr (by decide)
  split
  · rename_i hc
    rw [Bool.or_eq_true, decide_eq_true_iff, decide_eq_true_iff] at hc
    rcases hc with rfl | rfl <;> exact .inr (by decide)
  split
  · have hmark (mark : Char) (hm : mark ∉ "\\u\x7b".toList ∧ mark ∉ ['\x7d'] ∧ ¬ isHexDigit mark) : mark ∉ pointEscape c := by
      rw [pointEscape, List.mem_append, List.mem_append, or_assoc]
      exact not_or.mpr ⟨hm.1, not_or.mpr ⟨fun hd => hm.2.2 (isHexDigit_of_mem_toDigits _ hd), hm.2.1⟩⟩
    exact .inr ⟨List.cons_ne_nil _ _, hmark '*' (by decide), hmark '/' (by decide)⟩
  · exact .inl rfl

theorem exists_escapeAll (c : Char) (cs : List Char) :
    ∃ piece, Escapes piece c ∧ quotedLiteral.escapeAll (c :: cs) = piece ++ quotedLiteral.escapeAll cs := by
  rw [quotedLiteral.escapeAll.eq_def]
  refine ⟨_, ?_, rfl⟩
  split
  · split
    · split <;> exact .inr (by decide)
    · exact .inr (by decide)
  · exact escapes_escapeChar c

/-- A slash that is written at the front is at the front. -/
theorem head?_escapeAll (h : (quotedLiteral.escapeAll cs).head? = some '/') : cs.head? = some '/' := by
  cases cs with
  | nil => cases h
  | cons c cs =>
    obtain ⟨piece, hpiece, heq⟩ := exists_escapeAll c cs
    rw [heq] at h
    rcases hpiece with rfl | ⟨hn, -, hs⟩
    · exact h
    · rw [List.head?_append_of_ne_nil _ hn] at h
      exact absurd (List.mem_of_mem_head? h) hs

/-- Text is written with no end of a comment that it does not have. -/
theorem not_ends_escapeAll (h : ¬ "*/".toList <:+: cs) : ¬ "*/".toList <:+: quotedLiteral.escapeAll cs := by
  induction cs with
  | nil => exact h
  | cons c cs ih =>
    obtain ⟨piece, hpiece, heq⟩ := exists_escapeAll c cs
    have hcs : ¬ "*/".toList <:+: cs := fun hi => h (hi.trans (List.suffix_cons c cs).isInfix)
    rw [heq]
    intro hi
    obtain hi | hi | ⟨hlast, hhead⟩ := ends_append hi
    · rcases hpiece with rfl | ⟨-, hs, -⟩
      · exact absurd hi.length_le (Nat.not_succ_le_self 1)
      · exact hs (hi.subset (by decide))
    · exact ih hcs hi
    · rcases hpiece with rfl | ⟨-, hs, -⟩
      · cases hlast
        obtain ⟨behind, rfl⟩ := List.head?_eq_some_iff.mp (head?_escapeAll hhead)
        exact h ⟨[], behind, rfl⟩
      · exact hs (List.mem_of_getLast? hlast)

/-- A text that ends no comment is written as a literal that ends none. -/
theorem leavesOpen_quotedLiteral (h : ¬ "*/".toList <:+: cs) : LeavesOpen (quotedLiteral cs).toList := by
  rw [quotedLiteral, String.toList_ofList]
  have hquote : LeavesOpen ['\x22'] := .of_not_mem (by decide)
  constructor
  · intro hi
    obtain hi | hi | ⟨-, hhead⟩ := ends_append hi
    · have hi : "*/".toList <:+: ['\x22'] ++ quotedLiteral.escapeAll cs := hi
      obtain hi | hi | ⟨hlast, -⟩ := ends_append hi
      · exact hquote.inside hi
      · exact not_ends_escapeAll h hi
      · cases hlast
    · exact hquote.inside hi
    · cases hhead
  · exact fun hhead => absurd (Option.some.inj hhead) (by decide)

end GeneratorHost.Token
