import GeneratorHost.Token.Literal
import Mathlib.Tactic.Common

/-! Quoted literals: what a scan does inside one, step by step. A literal that is closed ends where it does in front
of anything that its suffix does not go on with. -/
namespace GeneratorHost.Token
open Text

/-! ### Borders -/

/-- Characters that no token goes on with. -/
def isBorder (c : Char) : Bool := [' ', '\n', ')', ']', '\x7d'].contains c

/-- Text that no token in front of it goes on with. -/
def Border (rest : List Char) : Prop := ∀ c ∈ rest.head?, isBorder c

variable {rest : List Char}

theorem border_nil : Border [] := by rintro _ ⟨⟩

theorem border_cons {c : Char} (h : isBorder c) (cs : List Char) : Border (c :: cs) := by
  rintro _ ⟨⟩
  exact h

theorem not_of_isBorder {p : Char → Bool} (hp : [' ', '\n', ')', ']', '\x7d'].all (!p ·)) {c : Char} (h : isBorder c) :
    p c = false := by
  have hc := List.all_eq_true.mp hp c (List.contains_iff_mem.mp h)
  rwa [Bool.not_eq_true'] at hc

theorem nameLength_le (cs : List Char) : nameLength cs ≤ cs.length := by
  cases cs with
  | nil => exact Nat.le_refl 0
  | cons c cs =>
    rw [nameLength]
    split
    · rw [List.length_cons, Nat.add_comm]
      exact Nat.succ_le_succ (List.takeWhile_sublist _).length_le
    · exact Nat.zero_le _

theorem takeWhile_append_border (h : Border rest) {p : Char → Bool} (hp : [' ', '\n', ')', ']', '\x7d'].all (!p ·))
    (cs : List Char) : (cs ++ rest).takeWhile p = cs.takeWhile p := by
  induction cs with
  | nil =>
    cases rest with
    | nil => rfl
    | cons c rest =>
      rw [List.nil_append, List.takeWhile_cons_of_neg (by rw [not_of_isBorder hp (h c rfl)]; exact Bool.false_ne_true),
        List.takeWhile_nil]
  | cons c cs ih => rw [List.cons_append, List.takeWhile_cons, List.takeWhile_cons, ih]

theorem nameLength_append (h : Border rest) (cs : List Char) : nameLength (cs ++ rest) = nameLength cs := by
  cases cs with
  | nil =>
    cases rest with
    | nil => rfl
    | cons c rest =>
      change nameLength (c :: rest) = 0
      rw [nameLength, not_of_isBorder (p := startsIdentifier) (by decide) (h c rfl)]
      rfl
  | cons c cs => rw [List.cons_append, nameLength, takeWhile_append_border h (by decide), nameLength]

/-! ### Steps -/

/-- Whether a character is passed over behind an escaped line end. -/
def QuotedState.skips : QuotedState → Char → Bool
  | .joining _, c => c = ' ' || c = '\t' || c = '\n' || c = '\r'
  | _, _ => false

/-- How a scan goes on inside a quoted literal: its state, or none behind the closing quote, and how many characters it
takes. -/
abbrev QuotedStep := Option QuotedState × Nat

/-- The step over an escape, from behind its mark. -/
def Quoted.escapeStep (q : Quoted) : List Char → Option QuotedStep
  | 'x' :: high :: low :: _ => if q.hexEscapes high low then some (some .plain, 4) else none
  | 'u' :: '\x7b' :: _ => if q = .bytes then none else some (some (.point 0 0), 3)
  | '\n' :: _ => some (some (.joining false), 2)
  | '\r' :: _ => some (some (.joining true), 2)
  | e :: _ => if q.escapes e then some (some .plain, 2) else none
  | [] => none

/-- The step from a state. -/
def Quoted.step (q : Quoted) : QuotedState → List Char → Option QuotedStep
  | _, [] => none
  | .joining true, c :: _ => if c = '\n' then some (some (.joining false), 1) else none
  | .point digits value, c :: _ =>
    if isHexDigit c then
      if digits = 6 then none else some (some (.point (digits + 1) (16 * value + hexValue c)), 1)
    else if c = '_' && 0 < digits then some (some (.point digits value), 1)
    else if c = '\x7d' && 0 < digits && q.admitsPoint value then some (some .plain, 1)
    else none
  | state, c :: cs =>
    if state.skips c then some (some (.joining (c = '\r')), 1)
    else if c = quotation then some (none, 1)
    else if c = '\r' then if cs.head? = some '\n' then some (some .plain, 2) else none
    else if c = backslash then q.escapeStep cs
    else if q.admits c then some (some .plain, 1)
    else none

/-- What a step leads to. -/
def Quoted.goOn (q : Quoted) (n : Nat) (cs : List Char) : QuotedStep → Option Nat
  | (none, k) => some (n + k + nameLength (cs.drop k))
  | (some state, k) => quotedLength q state (n + k) (cs.drop k)

/-- The length behind an escape mark. -/
theorem quotedLength_backslash (q : Quoted) {state : QuotedState} (n : Nat) (cs : List Char)
    (h : state = .plain ∨ state = .joining false) :
    quotedLength q state n (backslash :: cs) = (q.escapeStep cs).bind (q.goOn n (backslash :: cs)) := by
  fun_cases Quoted.escapeStep q cs
  all_goals
    rcases h with rfl | rfl
    all_goals
      unfold quotedLength
      simp only [Bool.false_eq_true, if_false, if_true, Option.bind_some, Option.bind_none, *]
      rfl

theorem Quoted.step_open (q : Quoted) {state : QuotedState} (c : Char) (cs : List Char)
    (h : state = .plain ∨ state = .joining false) : q.step state (c :: cs) =
      if state.skips c then some (some (.joining (c = '\r')), 1)
      else if c = quotation then some (none, 1)
      else if c = '\r' then if cs.head? = some '\n' then some (some .plain, 2) else none
      else if c = backslash then q.escapeStep cs
      else if q.admits c then some (some .plain, 1)
      else none := by
  rcases h with rfl | rfl <;> rfl

/-- Where no escape is begun, the character decides. -/
theorem quotedLength_open (q : Quoted) {state : QuotedState} (n : Nat) (c : Char) (cs : List Char)
    (h : state = .plain ∨ state = .joining false) :
    quotedLength q state n (c :: cs) = (q.step state (c :: cs)).bind (q.goOn n (c :: cs)) := by
  have hstep := q.step_open c cs h
  by_cases hc : c = backslash
  · subst hc
    have hskips : state.skips backslash = false := by rcases h with rfl | rfl <;> rfl
    rw [quotedLength_backslash q n cs h, hstep, if_neg (by simp [hskips]), if_neg (by decide), if_neg (by decide), if_pos rfl]
  rw [hstep]
  by_cases hr : c = '\r'
  · subst hr
    rcases h with rfl | rfl
    · rw [if_neg (by decide), if_neg (by decide), if_pos rfl]
      unfold quotedLength
      dsimp only
      rw [if_neg (by decide), if_neg (by decide), if_pos rfl]
      split
      · rfl
      · rename_i hn
        rw [if_neg]
        · rfl
        · intro hd
          obtain ⟨rest, rfl⟩ := List.head?_eq_some_iff.mp hd
          exact hn rest rfl
    · rw [if_pos (by decide)]
      unfold quotedLength
      rfl
  rw [if_neg hr, if_neg hc]
  have hopen (skips : Bool) : (if skips then quotedLength q (.joining (c = '\r')) (n + 1) cs
      else if c = quotation then some (n + 1 + nameLength cs)
      else if q.admits c then quotedLength q .plain (n + 1) cs else none) =
      (if skips then some (some (.joining (c = '\r')), 1) else if c = quotation then some (none, 1)
      else if q.admits c then some (some .plain, 1) else none).bind (q.goOn n (c :: cs)) := by
    cases skips with
    | true => rfl
    | false =>
      by_cases hq : c = quotation
      · simp only [hq, Bool.false_eq_true, if_false, if_true]
        rfl
      · by_cases ha : q.admits c <;> simp only [hq, ha, Bool.false_eq_true, if_false, if_true] <;> rfl
  rw [← hopen]
  rcases h with rfl | rfl
  all_goals
    conv_lhs =>
      unfold quotedLength
      simp only [hc, hr, if_false]
    simp only [hr, QuotedState.skips]

theorem quotedLength_eq (q : Quoted) (state : QuotedState) (n : Nat) (cs : List Char) :
    quotedLength q state n cs = (q.step state cs).bind (q.goOn n cs) := by
  cases cs with
  | nil => cases state <;> rw [quotedLength] <;> rfl
  | cons c cs =>
    cases state with
    | plain => exact quotedLength_open q n c cs (.inl rfl)
    | joining carriage =>
      cases carriage with
      | false => exact quotedLength_open q n c cs (.inr rfl)
      | true =>
        rw [quotedLength, Quoted.step]
        split <;> rfl
    | point digits value =>
      rw [quotedLength, Quoted.step]
      split
      · split <;> rfl
      · split
        · rfl
        · split <;> rfl
/-! ### With more behind -/

variable {q : Quoted} {state : QuotedState} {cs : List Char} {n m : Nat} {r : QuotedStep}

theorem Quoted.escapeStep_append (h : q.escapeStep cs = some r) (rest : List Char) :
    q.escapeStep (cs ++ rest) = some r ∧ 0 < r.2 ∧ r.2 ≤ cs.length + 1 := by
  have hx : q.escapes 'x' = false ∧ q.escapes 'u' = false := by cases q <;> decide
  fun_cases Quoted.escapeStep q cs
  case case7 e tail _ _ hn hr he =>
    rw [Quoted.escapeStep, if_pos he] at h
    · cases h
      refine ⟨?_, by simp⟩
      rw [List.cons_append, Quoted.escapeStep, if_pos he]
      · rintro _ _ _ rfl
        rw [hx.1] at he
        cases he
      · rintro _ rfl
        rw [hx.2] at he
        cases he
      · exact hn
      · exact hr
    all_goals assumption
  all_goals
    simp_all only [Quoted.escapeStep, List.cons_append, reduceCtorEq, if_true, if_false, Option.some.injEq,
      Bool.not_eq_true, true_and]
  all_goals
    subst h
    simp

theorem Quoted.step_append (h : q.step state cs = some r) (rest : List Char) :
    q.step state (cs ++ rest) = some r ∧ 0 < r.2 ∧ r.2 ≤ cs.length := by
  cases cs with
  | nil => cases state <;> cases h
  | cons c cs =>
    have hopen (ho : state = .plain ∨ state = .joining false) :
        q.step state (c :: cs ++ rest) = some r ∧ 0 < r.2 ∧ r.2 ≤ (c :: cs).length := by
      rw [List.cons_append, q.step_open c _ ho]
      rw [q.step_open c cs ho] at h
      split at h
      · cases h
        simp_all
      split at h
      · cases h
        simp_all
      split at h
      · split at h
        · rename_i hs
          obtain ⟨behind, rfl⟩ := List.head?_eq_some_iff.mp hs
          cases h
          simp_all
        · cases h
      split at h
      · have := q.escapeStep_append h rest
        simp_all
      split at h
      · cases h
        simp_all
      · cases h
    cases state with
    | plain => exact hopen (.inl rfl)
    | joining carriage =>
      cases carriage with
      | false => exact hopen (.inr rfl)
      | true =>
        simp only [Quoted.step, List.cons_append] at h ⊢
        split at h
        · rename_i hc
          cases h
          exact ⟨if_pos hc, by simp⟩
        · cases h
    | point =>
      simp only [Quoted.step, List.cons_append] at h ⊢
      refine ⟨h, ?_⟩
      split at h
      · split at h
        · cases h
        · cases h
          simp
      split at h
      · cases h
        simp
      split at h
      · cases h
        simp
      · cases h

/-- A literal that is closed is closed in the same place with more behind it. -/
theorem quotedLength_append (hr : Border rest) (h : quotedLength q state n cs = some m) :
    quotedLength q state n (cs ++ rest) = some m ∧ n < m ∧ m ≤ n + cs.length := by
  induction hk : cs.length using Nat.strongRecOn generalizing state n cs with
  | ind k ih =>
    subst hk
    rw [quotedLength_eq, Option.bind_eq_some_iff] at h
    obtain ⟨⟨state?, k⟩, hs, hg⟩ := h
    obtain ⟨hs', hpos, hle⟩ := Quoted.step_append hs rest
    rw [quotedLength_eq, hs', Option.bind_some]
    cases state? with
    | none =>
      rw [Quoted.goOn] at hg ⊢
      rw [List.drop_append_of_le_length hle, nameLength_append hr]
      have := nameLength_le (cs.drop k)
      rw [List.length_drop] at this
      cases hg
      refine ⟨rfl, ?_, ?_⟩ <;> dsimp only at hpos hle <;> omega
    | some state' =>
      rw [Quoted.goOn] at hg ⊢
      rw [List.drop_append_of_le_length hle]
      dsimp only at hpos hle
      have hlt : (cs.drop k).length < cs.length := by
        rw [List.length_drop]
        omega
      obtain ⟨ha, hn, hm⟩ := ih _ hlt hg rfl
      rw [List.length_drop] at hm
      exact ⟨ha, by omega, by omega⟩

end GeneratorHost.Token
