import GeneratorHost.Proofs.Token.Names
import GeneratorHost.Proofs.Token.Quoted

/-! Lengths of literals in front of a border: what a literal takes does not depend on what comes behind it. -/
namespace GeneratorHost.Token
open Text

variable {q : Quoted} {cs rest : List Char} {n m : Nat}

/-! ### Raw literals -/

/-- Whether the marks that close a raw literal are here. -/
def closesRaw (hashes : Nat) (cs : List Char) : Bool :=
  (cs.take hashes).length = hashes && (cs.take hashes).all (· = '#')

theorem closesRaw_append (h : Border rest) (hashes : Nat) (cs : List Char) :
    closesRaw hashes (cs ++ rest) = closesRaw hashes cs := by
  induction hashes generalizing cs with
  | zero => rfl
  | succ hashes ih =>
    cases cs with
    | nil =>
      cases rest with
      | nil => rfl
      | cons c rest =>
        have hc := not_of_isBorder (p := (· = '#')) (by decide) (h c rfl)
        simp_all [closesRaw]
    | cons c cs =>
      have := ih cs
      simp only [closesRaw, List.cons_append, List.take_succ_cons, List.length_cons, List.all_cons,
        Nat.add_right_cancel_iff, Bool.and_left_comm] at this ⊢
      rw [this]

theorem length_of_closesRaw {hashes : Nat} (h : closesRaw hashes cs) : hashes ≤ cs.length := by
  rw [closesRaw, Bool.and_eq_true, decide_eq_true_iff, List.length_take] at h
  omega

theorem rawLength_append (hr : Border rest) {hashes : Nat} (h : rawLength q hashes n cs = some m) :
    rawLength q hashes n (cs ++ rest) = some m ∧ n < m ∧ m ≤ n + cs.length := by
  induction hk : cs.length using Nat.strongRecOn generalizing n cs with
  | ind k ih =>
    subst hk
    cases cs with
    | nil => cases h
    | cons c cs =>
      rw [List.cons_append]
      unfold rawLength at h ⊢
      rw [Bool.and_assoc, ← closesRaw] at h ⊢
      rw [closesRaw_append hr]
      split at h
      · rename_i hc
        rw [Bool.and_eq_true] at hc
        have hl := length_of_closesRaw hc.2
        cases h
        rw [if_pos (by rw [hc.2, hc.1]; rfl), List.drop_append_of_le_length hl, nameLength_append hr]
        have := nameLength_le (cs.drop hashes)
        rw [List.length_drop] at this
        simp only [List.length_cons, true_and]
        omega
      rename_i hc
      rw [if_neg hc]
      split at h
      · rename_i hcr
        rw [if_pos hcr]
        split at h
        · rename_i behind
          obtain ⟨ha, hn, hm⟩ := ih behind.length (by simp only [List.length_cons]; omega) h rfl
          refine ⟨ha, by omega, ?_⟩
          simp only [List.length_cons]
          omega
        · cases h
      rename_i hcr
      rw [if_neg hcr]
      split at h
      · rename_i ha
        rw [if_pos ha]
        obtain ⟨ha, hn, hm⟩ := ih cs.length (Nat.lt_succ_self _) h rfl
        refine ⟨ha, by omega, ?_⟩
        simp only [List.length_cons]
        omega
      · cases h

theorem rawOpening_append (hr : Border rest) (h : rawOpening q n cs = some m) :
    rawOpening q n (cs ++ rest) = some m ∧ n < m ∧ m ≤ n + cs.length := by
  have hl : (cs.takeWhile (· = '#')).length ≤ cs.length := (List.takeWhile_sublist _).length_le
  unfold rawOpening at h ⊢
  dsimp only at h ⊢
  rw [takeWhile_append_border hr (by decide), List.drop_append_of_le_length hl]
  split at h
  · rename_i c behind hd
    rw [hd]
    dsimp only [List.cons_append]
    split at h
    · rename_i hc
      rw [if_pos hc]
      obtain ⟨ha, hn, hm⟩ := rawLength_append hr h
      have := congrArg List.length hd
      rw [List.length_drop, List.length_cons] at this
      exact ⟨ha, by omega, by omega⟩
    · cases h
  · cases h

/-! ### Single characters -/

theorem closing_append (hr : Border rest) (h : closing n cs = some m) :
    closing n (cs ++ rest) = some m ∧ n < m ∧ m ≤ n + cs.length := by
  cases cs with
  | nil => cases h
  | cons c cs =>
    rw [List.cons_append, closing, nameLength_append hr]
    rw [closing] at h
    refine ⟨h, ?_⟩
    split at h
    · cases h
      have := nameLength_le cs
      simp only [List.length_cons]
      omega
    · cases h

theorem closing_append_of_none (hr : Border rest) (h : closing n cs = none) : closing n (cs ++ rest) = none := by
  cases cs with
  | nil =>
    cases rest with
    | nil => rfl
    | cons c rest =>
      have hc := not_of_isBorder (p := (· = apostrophe)) (by decide) (hr c rfl)
      exact if_neg (of_decide_eq_false hc)
  | cons c cs =>
    rw [closing] at h
    split at h
    · cases h
    · rename_i hc
      exact if_neg hc

/-- A length of more behind a character. -/
theorem bounds_cons {c : Char} {k : Nat} (h : n + k < m ∧ m ≤ n + k + cs.length) (hk : k = 1) :
    n < m ∧ m ≤ n + (c :: cs).length := by
  rw [List.length_cons]
  omega

theorem pointClosing_append (hr : Border rest) {digits value : Nat} (h : pointClosing digits value n cs = some m) :
    pointClosing digits value n (cs ++ rest) = some m ∧ n < m ∧ m ≤ n + cs.length := by
  induction cs generalizing digits value n with
  | nil => cases h
  | cons c cs ih =>
    rw [List.cons_append, pointClosing]
    rw [pointClosing] at h
    split at h
    · rename_i hx
      rw [if_pos hx]
      split at h
      · cases h
      · rename_i hd
        rw [if_neg hd]
        obtain ⟨ha, hb⟩ := ih h
        exact ⟨ha, bounds_cons hb rfl⟩
    rename_i hx
    rw [if_neg hx]
    split at h
    · rename_i hu
      rw [if_pos hu]
      obtain ⟨ha, hb⟩ := ih h
      exact ⟨ha, bounds_cons hb rfl⟩
    rename_i hu
    rw [if_neg hu]
    split at h
    · rename_i he
      rw [if_pos he]
      obtain ⟨ha, hb⟩ := closing_append hr h
      exact ⟨ha, bounds_cons hb rfl⟩
    · cases h

theorem singleLength_of_ne {c : Char} (h : c ≠ backslash) :
    singleLength q n (c :: cs) = if q.admits c then closing (n + 1) cs else none := by
  unfold singleLength
  exact if_neg h

theorem singleLength_append (hr : Border rest) (h : singleLength q n cs = some m) :
    singleLength q n (cs ++ rest) = some m ∧ n < m ∧ m ≤ n + cs.length := by
  cases cs with
  | nil => cases h
  | cons c cs =>
    rw [List.cons_append]
    unfold singleLength at h ⊢
    dsimp only at h ⊢
    split at h
    · rename_i hc
      rw [if_pos hc]
      split at h
      · rename_i behind
        split at h
        · rename_i hx
          obtain ⟨ha, hb⟩ := closing_append hr h
          refine ⟨(if_pos hx).trans ha, ?_⟩
          simp only [List.length_cons]
          omega
        · cases h
      · rename_i behind
        split at h
        · cases h
        · rename_i hx
          obtain ⟨ha, hb⟩ := pointClosing_append hr h
          refine ⟨(if_neg hx).trans ha, ?_⟩
          simp only [List.length_cons]
          omega
      · rename_i e behind _ _
        split at h
        · rename_i he
          have hx : q.escapes 'x' = false ∧ q.escapes 'u' = false := by cases q <;> decide
          obtain ⟨ha, hb⟩ := closing_append hr h
          refine ⟨?_, ?_⟩
          · rw [List.cons_append]
            split
            · rename_i heq
              obtain ⟨rfl, -⟩ := List.cons.inj heq
              rw [hx.1] at he
              cases he
            · rename_i heq
              obtain ⟨rfl, -⟩ := List.cons.inj heq
              rw [hx.2] at he
              cases he
            · rename_i heq
              obtain ⟨rfl, rfl⟩ := List.cons.inj heq
              exact (if_pos he).trans ha
            · rename_i heq
              cases heq
          · simp only [List.length_cons]
            omega
        · cases h
      · cases h
    rename_i hc
    rw [if_neg hc]
    split at h
    · rename_i hq
      rw [if_pos hq]
      obtain ⟨ha, hb⟩ := closing_append hr h
      exact ⟨ha, bounds_cons hb rfl⟩
    · cases h

/-! ### Numbers -/

/-- What a border does to a number behind which it stands. -/
structure NumberBorder (c : Char) : Prop where
  digit : c.isDigit = false
  hexDigit : isHexDigit c = false
  identifier : continuesIdentifier c = false
  mark : c ∉ ['_', '.', 'e', 'E', '+', '-', 'x', 'o', 'b']

theorem numberBorder_of_isBorder {c : Char} (h : isBorder c) : NumberBorder c where
  digit := not_of_isBorder (by decide) h
  hexDigit := not_of_isBorder (by decide) h
  identifier := not_of_isBorder (by decide) h
  mark := by
    have := not_of_isBorder (p := fun c => ['_', '.', 'e', 'E', '+', '-', 'x', 'o', 'b'].contains c) (by decide) h
    rwa [Bool.eq_false_iff, ne_eq, List.contains_iff_mem] at this

/-- A mantissa with more text behind its exponent mark. -/
def Mantissa.before (m : Mantissa) (rest : List Char) : Mantissa := { m with exponent? := m.exponent?.map (· ++ rest) }

theorem mantissa_cons (dotted : Bool) (n : Nat) (c : Char) (cs : List Char) : mantissa dotted n (c :: cs) =
    if c.isDigit || c = '_' then mantissa dotted (n + 1) cs
    else if c = '.' then
      if dotted then some ⟨n, dotted, none⟩
      else if cs.head?.any fun d => d = '.' || startsIdentifier d then none
      else mantissa true (n + 1) cs
    else if c = 'e' || c = 'E' then some ⟨n + 1, dotted, some cs⟩
    else some ⟨n, dotted, none⟩ := by
  cases cs with
  | nil =>
    conv_lhs => unfold mantissa
    rfl
  | cons d cs =>
    conv_lhs => unfold mantissa
    simp only [List.head?_cons, Option.any_some]
    rfl

theorem head?_any_append (hr : Border rest) {p : Char → Bool} (hp : [' ', '\n', ')', ']', '\x7d'].all (!p ·)) (cs : List Char) :
    (cs ++ rest).head?.any p = cs.head?.any p := by
  cases cs with
  | nil =>
    cases rest with
    | nil => rfl
    | cons c rest => exact not_of_isBorder hp (hr c rfl)
  | cons c cs => rfl

theorem mantissa_append (hr : Border rest) (dotted : Bool) (n : Nat) (cs : List Char) :
    mantissa dotted n (cs ++ rest) = (mantissa dotted n cs).map (·.before rest) := by
  induction cs generalizing dotted n with
  | nil =>
    cases rest with
    | nil => cases dotted <;> rfl
    | cons c rest =>
      have hc := numberBorder_of_isBorder (hr c rfl)
      have hm := hc.mark
      simp only [List.mem_cons, List.not_mem_nil, or_false, not_or] at hm
      simp [mantissa, hc.digit, hm, Mantissa.before]
  | cons c cs ih =>
    rw [List.cons_append, mantissa_cons, mantissa_cons, head?_any_append hr (by decide), ih, ih]
    repeat' split
    all_goals rfl

theorem mantissa_bounds {dotted : Bool} {m : Mantissa} (h : mantissa dotted n cs = some m) :
    n ≤ m.length ∧ (m.exponent?.elim m.length fun behind => m.length + behind.length) ≤ n + cs.length ∧
      (m.exponent?.isSome → n < m.length) := by
  induction cs generalizing dotted n with
  | nil =>
    cases h
    simp
  | cons c cs ih =>
    rw [mantissa_cons] at h
    rw [List.length_cons]
    repeat' split at h
    · have := ih h
      refine ⟨by omega, by omega, fun he => ?_⟩
      have := this.2.2 he
      omega
    · cases h
      simp
    · cases h
    · have := ih h
      refine ⟨by omega, by omega, fun he => ?_⟩
      have := this.2.2 he
      omega
    · cases h
      simp
      omega
    · cases h
      simp

theorem exponentLength_append (hr : Border rest) (before : Option Nat) (signed valued : Bool) (n : Nat) (cs : List Char) :
    exponentLength before signed valued n (cs ++ rest) = exponentLength before signed valued n cs := by
  induction cs generalizing signed valued n with
  | nil =>
    cases rest with
    | nil => rfl
    | cons c rest =>
      have hc := numberBorder_of_isBorder (hr c rfl)
      have hm := hc.mark
      simp only [List.mem_cons, List.not_mem_nil, or_false, not_or] at hm
      simp [exponentLength, hc.digit, hm]
  | cons c cs ih => rw [List.cons_append, exponentLength, exponentLength, ih, ih, ih]

theorem exponentLength_bounds {before : Option Nat} {signed valued : Bool} (h : exponentLength before signed valued n cs = some m) :
    before = some m ∨ n ≤ m ∧ m ≤ n + cs.length := by
  induction cs generalizing signed valued n with
  | nil =>
    rw [exponentLength] at h
    split at h
    · cases h
      exact .inr ⟨Nat.le_refl _, Nat.le_refl _⟩
    · exact .inl h
  | cons c cs ih =>
    have step {signed valued : Bool} (h : exponentLength before signed valued (n + 1) cs = some m) :
        before = some m ∨ n ≤ m ∧ m ≤ n + (c :: cs).length := by
      rw [List.length_cons]
      rcases ih h with hb | hb
      · exact .inl hb
      · exact .inr (by omega)
    rw [exponentLength] at h
    repeat' split at h
    · cases h
      exact .inr ⟨Nat.le_refl _, Nat.le_add_right _ _⟩
    · exact .inl h
    · exact step h
    · exact step h
    · exact step h
    · cases h
      exact .inr ⟨Nat.le_refl _, Nat.le_add_right _ _⟩
    · exact .inl h

theorem fractionDigits_append (hr : Border rest) (cs : List Char) : fractionDigits (cs ++ rest) = fractionDigits cs := by
  cases cs with
  | nil =>
    cases rest with
    | nil => rfl
    | cons c rest =>
      have hc := numberBorder_of_isBorder (hr c rfl)
      simp [fractionDigits, hc.digit]
  | cons c cs =>
    rw [List.cons_append, fractionDigits, fractionDigits, mantissa_append hr]
    cases mantissa false 1 cs with
    | none => rfl
    | some m =>
      obtain ⟨length, dotted, exponent?⟩ := m
      cases exponent? with
      | none => rfl
      | some behind =>
        simp only [Option.map_some, Mantissa.before, exponentLength_append hr]

theorem fractionDigits_bounds (h : fractionDigits cs = some m) : 0 < m ∧ m ≤ cs.length := by
  cases cs with
  | nil => cases h
  | cons c cs =>
    rw [fractionDigits] at h
    split at h
    · cases hm : mantissa false 1 cs with
      | none =>
        rw [hm] at h
        cases h
      | some k =>
        obtain ⟨hn, hl, he⟩ := mantissa_bounds hm
        rw [hm] at h
        obtain ⟨length, dotted, exponent?⟩ := k
        cases exponent? with
        | none =>
          simp only [Option.elim_none, List.length_cons] at h hl hn ⊢
          split at h
          · cases h
            omega
          · cases h
        | some behind =>
          simp only [Option.elim_some, List.length_cons, Option.isSome_some, true_implies] at h hl hn he ⊢
          rcases exponentLength_bounds h with hb | hb
          · split at hb
            · cases hb
              omega
            · cases hb
          · omega
    · cases h

theorem wholeDigits_append (hr : Border rest) (base : Nat) (empty : Bool) (n : Nat) (cs : List Char) :
    wholeDigits base empty n (cs ++ rest) = wholeDigits base empty n cs := by
  induction cs generalizing empty n with
  | nil =>
    cases rest with
    | nil => rfl
    | cons c rest =>
      have hc := numberBorder_of_isBorder (hr c rfl)
      have hm := hc.mark
      simp only [List.mem_cons, List.not_mem_nil, or_false, not_or] at hm
      simp [wholeDigits, hc.digit, hc.hexDigit, hm]
  | cons c cs ih => rw [List.cons_append, wholeDigits, wholeDigits, ih, ih]

theorem wholeDigits_bounds {base : Nat} {empty : Bool} (h : wholeDigits base empty n cs = some m) :
    n ≤ m ∧ m ≤ n + cs.length ∧ (empty → n < m) := by
  induction cs generalizing empty n with
  | nil =>
    rw [wholeDigits] at h
    split at h
    · cases h
    · cases h
      simp_all
  | cons c cs ih =>
    have step {empty' : Bool} (h : wholeDigits base empty' (n + 1) cs = some m) :
        n ≤ m ∧ m ≤ n + (c :: cs).length ∧ (empty → n < m) := by
      rw [List.length_cons]
      have := ih h
      exact ⟨by omega, by omega, fun _ => by omega⟩
    rw [wholeDigits] at h
    repeat' split at h
    all_goals first
    | exact step h
    | cases h
    all_goals simp_all

/-- A mark of a base does not begin behind a border. -/
theorem exists_of_base (hr : Border rest) {d : Char} (hd : d ∈ ['x', 'o', 'b']) {behind : List Char}
    (h : cs ++ rest = '0' :: d :: behind) : ∃ digits, cs = '0' :: d :: digits ∧ behind = digits ++ rest := by
  have hn (c : Char) (hc : c ∈ ['0', 'x', 'o', 'b']) (cs : List Char) : rest ≠ c :: cs := by
    rintro rfl
    have hm := not_of_isBorder (p := fun c => ['0', 'x', 'o', 'b'].contains c) (by decide) (hr c rfl)
    rw [Bool.eq_false_iff, ne_eq, List.contains_iff_mem] at hm
    exact hm hc
  cases cs with
  | nil => exact absurd h (hn '0' (by simp) _)
  | cons c cs =>
    obtain ⟨rfl, ht⟩ := List.cons.inj h
    cases cs with
    | nil => exact absurd ht (hn d (List.mem_cons_of_mem _ hd) _)
    | cons d' cs =>
      obtain ⟨rfl, rfl⟩ := List.cons.inj ht
      exact ⟨cs, rfl, rfl⟩

theorem wholeLength_append (hr : Border rest) (cs : List Char) : wholeLength (cs ++ rest) = wholeLength cs := by
  conv_lhs => unfold wholeLength
  split
  all_goals try
    rename_i h
    obtain ⟨digits, rfl, rfl⟩ := exists_of_base hr (by simp) h
    exact wholeDigits_append hr _ _ _ _
  rename_i hx ho hb
  unfold wholeLength
  split
  · exact absurd rfl (hx _)
  · exact absurd rfl (ho _)
  · exact absurd rfl (hb _)
  · exact wholeDigits_append hr _ _ _ _

theorem wholeLength_bounds (h : wholeLength cs = some m) : 0 < m ∧ m ≤ cs.length := by
  unfold wholeLength at h
  split at h
  all_goals
    have := wholeDigits_bounds h
    simp only [List.length_cons, true_implies] at this ⊢
    omega

theorem suffixed_append (hr : Border rest) (hn : n ≤ cs.length) : suffixed (cs ++ rest) n = suffixed cs n := by
  unfold suffixed
  dsimp only
  have hl := nameLength_le (cs.drop n)
  rw [List.length_drop] at hl
  rw [List.drop_append_of_le_length hn, nameLength_append hr, List.drop_append_of_le_length (by omega)]
  cases cs.drop (n + nameLength (cs.drop n)) with
  | nil =>
    cases rest with
    | nil => rfl
    | cons c rest =>
      have := (numberBorder_of_isBorder (hr c rfl)).identifier
      simp [this]
  | cons => rfl

theorem suffixed_bounds (hn : n ≤ cs.length) (h : suffixed cs n = some m) : n ≤ m ∧ m ≤ cs.length := by
  unfold suffixed at h
  dsimp only at h
  have hl := nameLength_le (cs.drop n)
  rw [List.length_drop] at hl
  split at h
  · split at h
    · cases h
    · cases h
      omega
  · cases h
    omega

theorem numberLength_append (hr : Border rest) (cs : List Char) : numberLength (cs ++ rest) = numberLength cs := by
  have hs {f : List Char → Option Nat} (ha : f (cs ++ rest) = f cs) (hb : ∀ n, f cs = some n → n ≤ cs.length) :
      (f (cs ++ rest)).bind (suffixed (cs ++ rest)) = (f cs).bind (suffixed cs) := by
    rw [ha]
    cases hf : f cs with
    | none => rfl
    | some n => exact suffixed_append hr (hb n hf)
  unfold numberLength
  rw [hs (fractionDigits_append hr cs) fun _ h => (fractionDigits_bounds h).2,
    hs (wholeLength_append hr cs) fun _ h => (wholeLength_bounds h).2]

theorem numberLength_bounds (h : numberLength cs = some m) : 0 < m ∧ m ≤ cs.length := by
  have hs {f : List Char → Option Nat} (hf : ∀ n, f cs = some n → 0 < n ∧ n ≤ cs.length)
      (h : (f cs).bind (suffixed cs) = some m) : 0 < m ∧ m ≤ cs.length := by
    obtain ⟨n, hn, h⟩ := Option.bind_eq_some_iff.mp h
    have := hf n hn
    have := suffixed_bounds this.2 h
    omega
  unfold numberLength at h
  split at h
  · rename_i hn
    cases h
    exact hs (fun _ => fractionDigits_bounds) hn
  · exact hs (fun _ => wholeLength_bounds) h

/-! ### Literals -/

theorem orElse_none {α : Type} (o : Option α) : (o.orElse fun _ => none) = o := by
  cases o <;> rfl

theorem literalLength_quotation (cs : List Char) : literalLength (quotation :: cs) = quotedLength .text .plain 1 cs :=
  orElse_none _

theorem literalLength_apostrophe (cs : List Char) : literalLength (apostrophe :: cs) = singleLength .text 1 cs :=
  orElse_none _

theorem literalLength_r (cs : List Char) : literalLength ('r' :: cs) = rawOpening .text 1 cs := by
  have hn : numberLength ('r' :: cs) = none := numberLength_eq_none (by decide)
  unfold literalLength
  rw [hn]
  exact orElse_none _

/-- What a literal that begins with a letter is, from behind the letter. -/
def lettered (q : Quoted) : List Char → Option Nat
  | '\x22' :: cs => quotedLength q .plain 2 cs
  | 'r' :: cs => rawOpening q 2 cs
  | c :: cs => if q = .bytes && c = apostrophe then singleLength q 2 cs else none
  | [] => none

theorem literalLength_b (cs : List Char) : literalLength ('b' :: cs) = lettered .bytes cs := by
  have hn : numberLength ('b' :: cs) = none := numberLength_eq_none (by decide)
  unfold literalLength
  rw [hn]
  fun_cases lettered .bytes cs
  · exact orElse_none _
  · exact orElse_none _
  · rename_i ha
    cases of_decide_eq_true (Bool.and_eq_true_iff.mp ha).2
    exact orElse_none _
  · rename_i c behind hq hr ha
    have hbt : byteTextLength ('b' :: c :: behind) = none := by
      unfold byteTextLength
      split <;> simp_all
    have hby : byteLength ('b' :: c :: behind) = none := if_neg (by simpa using ha)
    rw [hbt, hby]
    rfl
  · rfl

theorem literalLength_c (cs : List Char) : literalLength ('c' :: cs) = lettered .cText cs := by
  have hn : numberLength ('c' :: cs) = none := numberLength_eq_none (by decide)
  unfold literalLength
  rw [hn]
  fun_cases lettered .cText cs
  · exact orElse_none _
  · exact orElse_none _
  · rename_i ha
    cases ha
  · rename_i c behind hq hr ha
    have hct : cTextLength ('c' :: c :: behind) = none := by
      unfold cTextLength
      split <;> simp_all
    rw [hct]
    rfl
  · rfl

theorem literalLength_of_ne {c : Char} (h : c ∉ [quotation, apostrophe, 'r', 'b', 'c']) (cs : List Char) :
    literalLength (c :: cs) = numberLength (c :: cs) := by
  simp only [List.mem_cons, List.not_mem_nil, or_false, not_or] at h
  obtain ⟨hq, ha, hr, hb, hc⟩ := h
  have ht : textLength (c :: cs) = none := by
    unfold textLength
    split <;> simp_all [quotation]
  have hbt : byteTextLength (c :: cs) = none := by
    unfold byteTextLength
    split <;> simp_all
  have hct : cTextLength (c :: cs) = none := by
    unfold cTextLength
    split <;> simp_all
  have hby : byteLength (c :: cs) = none := by
    unfold byteLength
    split <;> simp_all
  have hch : characterLength (c :: cs) = none := if_neg ha
  rw [literalLength, ht, hbt, hct, hby, hch]
  rfl

theorem lettered_append (hr : Border rest) (h : lettered q cs = some m) :
    lettered q (cs ++ rest) = some m ∧ 0 < m ∧ m ≤ cs.length + 1 := by
  fun_cases lettered q cs
  · obtain ⟨ha, hb⟩ := quotedLength_append hr h
    simp only [List.length_cons]
    exact ⟨ha, by omega, by omega⟩
  · obtain ⟨ha, hb⟩ := rawOpening_append hr h
    simp only [List.length_cons]
    exact ⟨ha, by omega, by omega⟩
  · rename_i behind ha
    obtain ⟨hq, ha⟩ := Bool.and_eq_true_iff.mp ha
    cases of_decide_eq_true hq
    cases of_decide_eq_true ha
    obtain ⟨ha, hb⟩ := singleLength_append hr h
    simp only [List.length_cons]
    exact ⟨ha, by omega, by omega⟩
  · rename_i hq hr ha
    rw [lettered, if_neg ha] at h
    · cases h
    · exact hq
    · exact hr
  · cases h

theorem literalLength_append (hr : Border rest) (h : literalLength cs = some m) :
    literalLength (cs ++ rest) = some m ∧ 0 < m ∧ m ≤ cs.length := by
  cases cs with
  | nil => cases h
  | cons c cs =>
    rw [List.cons_append, List.length_cons]
    by_cases hc : c ∈ [quotation, apostrophe, 'r', 'b', 'c']
    · simp only [List.mem_cons, List.not_mem_nil, or_false] at hc
      rcases hc with rfl | rfl | rfl | rfl | rfl
      · rw [literalLength_quotation] at h ⊢
        obtain ⟨ha, hb⟩ := quotedLength_append hr h
        exact ⟨ha, by omega, by omega⟩
      · rw [literalLength_apostrophe] at h ⊢
        obtain ⟨ha, hb⟩ := singleLength_append hr h
        exact ⟨ha, by omega, by omega⟩
      · rw [literalLength_r] at h ⊢
        obtain ⟨ha, hb⟩ := rawOpening_append hr h
        exact ⟨ha, by omega, by omega⟩
      · rw [literalLength_b] at h ⊢
        exact lettered_append hr h
      · rw [literalLength_c] at h ⊢
        exact lettered_append hr h
    · rw [literalLength_of_ne hc] at h ⊢
      rw [← List.cons_append, numberLength_append hr]
      exact ⟨h, numberLength_bounds h⟩

end GeneratorHost.Token
