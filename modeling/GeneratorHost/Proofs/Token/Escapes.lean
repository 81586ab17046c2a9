import GeneratorHost.Proofs.Token.Leaves
import GeneratorHost.Text.Escaped
import Mathlib.Data.Nat.Digits.Defs

/-! Text that is written as a literal reads as that literal: each character's escape is passed over by the steps of the
scan inside it. -/
namespace GeneratorHost.Token
open Text

variable {q : Quoted} {state state' : QuotedState} {cs rest : List Char} {k n : Nat} {c : Char}

theorem quotedLength_of_step (h : q.step state cs = some (some state', k)) (n : Nat) :
    quotedLength q state n cs = quotedLength q state' (n + k) (cs.drop k) := by
  rw [quotedLength_eq, h]
  rfl

/-! ### Code points -/

theorem isHexDigit_digitChar {d : Nat} (h : d < 16) : isHexDigit d.digitChar ∧ hexValue d.digitChar = d := by
  revert d
  decide

theorem step_point {digits value d : Nat} (hd : d < 16) (hn : digits ≠ 6) (rest : List Char) :
    q.step (.point digits value) (d.digitChar :: rest) = some (some (.point (digits + 1) (16 * value + d)), 1) := by
  obtain ⟨hh, hv⟩ := isHexDigit_digitChar hd
  rw [Quoted.step, if_pos hh, if_neg hn, hv]

/-- The digits of a number are read as its value. -/
theorem quotedLength_digits {value : Nat} (hk : k ≤ 6) (h0 : 0 < k) (h : value < 16 ^ k) (n : Nat) (rest : List Char) :
    ∃ digits, 0 < digits ∧ digits ≤ k ∧ digits = (Nat.toDigits 16 value).length ∧
      quotedLength q (.point 0 0) n (Nat.toDigits 16 value ++ rest) =
        quotedLength q (.point digits value) (n + digits) rest := by
  induction k generalizing value rest with
  | zero => cases h0
  | succ k ih =>
    rw [Nat.toDigits_eq_if (by decide)]
    by_cases hv : value < 16
    · rw [if_pos hv]
      refine ⟨1, Nat.one_pos, Nat.succ_le_succ (Nat.zero_le k), rfl, ?_⟩
      rw [List.singleton_append, quotedLength_of_step (step_point hv (by decide) rest), Nat.zero_add, Nat.mul_zero,
        Nat.zero_add]
      rfl
    · rw [if_neg hv]
      have hk0 : 0 < k := by
        rcases Nat.eq_zero_or_pos k with rfl | hk0
        · exact absurd h hv
        · exact hk0
      have hlt : value / 16 < 16 ^ k := Nat.div_lt_of_lt_mul (by rwa [← Nat.pow_succ'])
      obtain ⟨digits, hpos, hle, hl, he⟩ := ih (by omega) hk0 hlt ((value % 16).digitChar :: rest)
      refine ⟨digits + 1, Nat.succ_pos _, Nat.succ_le_succ hle, ?_, ?_⟩
      · rw [List.length_append, ← hl]
        rfl
      · rw [List.append_assoc, List.singleton_append, he,
          quotedLength_of_step (step_point (Nat.mod_lt _ (by decide)) (by omega) rest), Nat.div_add_mod]
        rfl

/-! ### Escapes -/

/-- A piece of text inside a literal that a scan passes over. -/
def Passes (piece : List Char) : Prop := ∀ n rest, quotedLength .text .plain n (piece ++ rest) =
  quotedLength .text .plain (n + piece.length) rest

theorem Passes.append {piece piece' : List Char} (h : Passes piece) (h' : Passes piece') : Passes (piece ++ piece') := by
  intro n rest
  rw [List.append_assoc, h, h', List.length_append, Nat.add_assoc]

theorem passes_of_step {piece : List Char}
    (h : ∀ rest, Quoted.text.step .plain (piece ++ rest) = some (some .plain, piece.length)) : Passes piece := by
  intro n rest
  rw [quotedLength_of_step (h rest), List.drop_left]

theorem step_backslash (q : Quoted) (cs : List Char) : q.step .plain (backslash :: cs) = q.escapeStep cs := by
  rw [q.step_open _ _ (.inl rfl), if_neg (by decide), if_neg (by decide), if_neg (by decide), if_pos rfl]

theorem passes_escape {e : Char} (he : e ∈ ['0', 't', 'r', 'n', quotation, backslash]) : Passes [backslash, e] := by
  refine passes_of_step fun rest => ?_
  refine (step_backslash .text (e :: rest)).trans ?_
  simp only [List.mem_cons, List.not_mem_nil, or_false] at he
  rcases he with rfl | rfl | rfl | rfl | rfl | rfl <;> rfl

theorem passes_pointEscape (c : Char) : Passes (pointEscape c) := by
  intro n rest
  have hvalid : Quoted.text.admitsPoint c.toNat := by
    have hv : c.toNat < 0xd800 ∨ 0xdfff < c.toNat ∧ c.toNat < 0x110000 := c.valid
    simpa [Quoted.admitsPoint] using hv
  have hlt : c.toNat < 16 ^ 6 := by
    have hv : c.toNat < 0xd800 ∨ 0xdfff < c.toNat ∧ c.toNat < 0x110000 := c.valid
    omega
  obtain ⟨digits, hpos, -, hl, he⟩ := quotedLength_digits (q := .text) (Nat.le_refl 6) (by decide) hlt (n + 3) ('\x7d' :: rest)
  have hopen (cs : List Char) : Quoted.text.step .plain (backslash :: 'u' :: '\x7b' :: cs) = some (some (.point 0 0), 3) :=
    step_backslash .text _
  have hclose : Quoted.text.step (.point digits c.toNat) ('\x7d' :: rest) = some (some .plain, 1) := by
    rw [Quoted.step, if_neg (by decide), if_neg (by simp)]
    simp [hpos, hvalid]
  have hpiece : pointEscape c ++ rest = backslash :: 'u' :: '\x7b' :: (Nat.toDigits 16 c.toNat ++ '\x7d' :: rest) := by
    simp [pointEscape, backslash]
  have hlength : (pointEscape c).length = 3 + digits + 1 := by
    rw [pointEscape, List.length_append, List.length_append, ← hl]
    rfl
  rw [hpiece, quotedLength_of_step (hopen _), List.drop_succ_cons, List.drop_succ_cons, List.drop_succ_cons, List.drop_zero,
    he, quotedLength_of_step hclose, hlength]
  simp only [List.drop_succ_cons, List.drop_zero, Nat.add_assoc]

theorem passes_escapeChar (c : Char) : Passes (escapeChar c) := by
  unfold escapeChar
  split
  · exact passes_escape (by decide)
  split
  · exact passes_escape (by decide)
  split
  · exact passes_escape (by decide)
  split
  · exact passes_escape (by decide)
  rename_i hr _
  split
  · rename_i hc
    refine passes_escape ?_
    rw [Bool.or_eq_true, decide_eq_true_iff, decide_eq_true_iff] at hc
    rcases hc with rfl | rfl <;> decide
  rename_i hc
  split
  · exact passes_pointEscape c
  · refine passes_of_step fun rest => ?_
    rw [Bool.or_eq_true, decide_eq_true_iff, decide_eq_true_iff, not_or] at hc
    have hq : c ≠ quotation := hc.1
    have hb : c ≠ backslash := hc.2
    have hs : ¬ QuotedState.plain.skips c := Bool.false_ne_true
    rw [List.singleton_append, Quoted.step_open _ _ _ (.inl rfl), if_neg hs, if_neg hq, if_neg hr,
      if_neg hb]
    rfl

theorem passes_escapeAll (cs : List Char) : Passes (quotedLiteral.escapeAll cs) := by
  induction cs with
  | nil => exact fun _ _ => rfl
  | cons c cs ih =>
    rw [quotedLiteral.escapeAll.eq_def]
    refine Passes.append ?_ ih
    split
    · split
      · split
        · exact passes_of_step fun rest => step_backslash .text _
        · exact passes_escape (by decide)
      · exact passes_escape (by decide)
    · exact passes_escapeChar c

/-- A text that is written as a literal is read as one. -/
theorem leaf?_quotedLiteral (cs : List Char) : leaf? (quotedLiteral cs).toList =
    some ((quotedLiteral cs).toList.length, .literal (quotedLiteral cs)) := by
  have hl : literalLength (quotedLiteral cs).toList = some (quotedLiteral cs).toList.length := by
    rw [quotedLiteral, String.toList_ofList, List.cons_append]
    refine (literalLength_quotation _).trans ?_
    rw [passes_escapeAll cs, List.length_cons, List.length_append]
    refine congrArg some ?_
    simp [nameLength]
    omega
  rw [leaf?_of_literal hl, List.take_length, String.ofList_toList]

end GeneratorHost.Token
