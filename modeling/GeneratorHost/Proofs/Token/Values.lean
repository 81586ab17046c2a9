import GeneratorHost.Proofs.Token.Escapes

/-! The text that a literal stands for, and that a text written as a literal is that literal's. -/
namespace GeneratorHost.Token
open Text

/-- The text that a literal stands for, from behind its opening quote or from inside the escape of a code point whose
digits so far have a value. Literals with suffixes or escaped line ends have none. -/
def valueFrom : Option Nat → List Char → Option (List Char)
  | _, [] => none
  | some point, c :: cs =>
    if c = '\x7d' then (valueFrom none cs).map (Char.ofNat point :: ·)
    else if isHexDigit c then valueFrom (some (16 * point + hexValue c)) cs
    else none
  | none, c :: cs =>
    if c = quotation then if cs.isEmpty then some [] else none
    else if c = backslash then
      match cs with
      | 'u' :: '\x7b' :: cs => valueFrom (some 0) cs
      | 'x' :: high :: low :: cs => (valueFrom none cs).map (Char.ofNat (16 * hexValue high + hexValue low) :: ·)
      | '0' :: cs => (valueFrom none cs).map ('\x00' :: ·)
      | 't' :: cs => (valueFrom none cs).map ('\t' :: ·)
      | 'n' :: cs => (valueFrom none cs).map ('\n' :: ·)
      | 'r' :: cs => (valueFrom none cs).map ('\r' :: ·)
      | mark :: cs => if mark ∈ [backslash, quotation, apostrophe] then (valueFrom none cs).map (mark :: ·) else none
      | [] => none
    else (valueFrom none cs).map (c :: ·)

/-- The text that a quoted literal stands for. -/
def value? : List Char → Option (List Char)
  | '\x22' :: cs => valueFrom none cs
  | _ => none

/-- A literal's piece stands for a character. -/
def Spells (piece : List Char) (c : Char) : Prop :=
  ∀ rest, valueFrom none (piece ++ rest) = (valueFrom none rest).map (c :: ·)

/-- The digits of a number stand for its value. -/
theorem valueFrom_digits (value : Nat) (rest : List Char) :
    valueFrom (some 0) (Nat.toDigits 16 value ++ rest) = valueFrom (some value) rest := by
  have hdigit (point : Nat) {d : Nat} (hd : d < 16) (rest : List Char) :
      valueFrom (some point) (d.digitChar :: rest) = valueFrom (some (16 * point + d)) rest := by
    obtain ⟨hh, hv⟩ := isHexDigit_digitChar hd
    have hc : d.digitChar ≠ '\x7d' := by
      intro h
      rw [h] at hh
      exact absurd hh (by decide)
    rw [valueFrom, if_neg hc, if_pos hh, hv]
  induction value using Nat.strong_induction_on generalizing rest with
  | _ value ih =>
    rw [Nat.toDigits_eq_if (by decide)]
    by_cases hv : value < 16
    · rw [if_pos hv, List.singleton_append, hdigit 0 hv, Nat.mul_zero, Nat.zero_add]
    · rw [if_neg hv, List.append_assoc, List.singleton_append, ih (value / 16) (by omega),
        hdigit _ (Nat.mod_lt _ (by decide)), Nat.div_add_mod]

theorem spells_pointEscape (c : Char) : Spells (pointEscape c) c := by
  intro rest
  have hpiece : pointEscape c ++ rest = backslash :: 'u' :: '\x7b' :: (Nat.toDigits 16 c.toNat ++ '\x7d' :: rest) := by
    simp [pointEscape, backslash]
  rw [hpiece, valueFrom, if_neg (by decide), if_pos rfl]
  rw [valueFrom_digits, valueFrom, if_pos rfl, Char.ofNat_toNat]

theorem spells_escapeChar (c : Char) (h : c ≠ '\x00') : Spells (escapeChar c) c := by
  unfold escapeChar
  rw [if_neg h]
  split
  · subst_vars
    exact fun _ => rfl
  split
  · subst_vars
    exact fun _ => rfl
  split
  · subst_vars
    exact fun _ => rfl
  split
  · rename_i hc
    rw [Bool.or_eq_true, decide_eq_true_iff, decide_eq_true_iff] at hc
    rcases hc with rfl | rfl <;> exact fun _ => rfl
  rename_i hc
  split
  · exact spells_pointEscape c
  · intro rest
    rw [Bool.or_eq_true, decide_eq_true_iff, decide_eq_true_iff, not_or] at hc
    have hq : c ≠ quotation := hc.1
    have hb : c ≠ backslash := hc.2
    rw [List.singleton_append, valueFrom.eq_def]
    dsimp only
    rw [if_neg hq, if_neg hb]

/-- A text that is written as a literal is what the literal stands for. -/
theorem value?_quotedLiteral (cs : List Char) : value? (quotedLiteral cs).toList = some cs := by
  rw [quotedLiteral, String.toList_ofList]
  change valueFrom none (quotedLiteral.escapeAll cs ++ ['\x22']) = some cs
  induction cs with
  | nil => rfl
  | cons c cs ih =>
    have hpiece (piece : List Char) (h : Spells piece c) :
        valueFrom none (piece ++ quotedLiteral.escapeAll cs ++ ['\x22']) = some (c :: cs) := by
      rw [List.append_assoc, h, ih]
      rfl
    rw [quotedLiteral.escapeAll.eq_def]
    refine hpiece _ ?_
    split
    · subst_vars
      split
      · split <;> exact fun _ => rfl
      · exact fun _ => rfl
    · exact spells_escapeChar c ‹_›

end GeneratorHost.Token
