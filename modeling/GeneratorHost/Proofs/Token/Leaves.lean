import GeneratorHost.Proofs.Token.Lengths

/-! Tokens in front of a border: which token begins a text, and where it ends, does not depend on what comes behind
it. -/
namespace GeneratorHost.Token
open Text

variable {cs rest : List Char} {n : Nat}

/-! ### Openings -/

theorem isPrefixOf_append_border (hr : Border rest) {opening : List Char} (ho : opening.all (!isBorder ·)) (cs : List Char) :
    opening.isPrefixOf (cs ++ rest) = opening.isPrefixOf cs := by
  induction opening generalizing cs with
  | nil => rfl
  | cons a opening ih =>
    rw [List.all_cons, Bool.and_eq_true] at ho
    cases cs with
    | nil =>
      cases rest with
      | nil => rfl
      | cons c rest =>
        have hc : a ≠ c := by
          rintro rfl
          rw [hr a rfl] at ho
          cases ho.1
        simp [List.isPrefixOf, hc]
    | cons c cs => rw [List.cons_append, List.isPrefixOf, List.isPrefixOf, ih ho.2]

theorem punctuation?_cons (c : Char) (cs : List Char) : punctuation? (c :: cs) =
    if c = '/' && cs.head?.any fun d => d = '/' || d = '*' then none
    else if "~!@#$%^&*-=+|;:,<.>/?'".toList.contains c then some c
    else none := by
  unfold punctuation?
  split
  · rename_i heq
    cases heq
    rfl
  · rename_i heq
    cases heq
    rfl
  · rename_i hs hb heq
    cases heq
    have hc : (c = '/' && cs.head?.any fun d => d = '/' || d = '*') = false := by
      rw [Bool.eq_false_iff, ne_eq, Bool.and_eq_true, Option.any_eq_true]
      rintro ⟨hc, d, hd, h⟩
      obtain ⟨behind, rfl⟩ := List.head?_eq_some_iff.mp hd
      simp only [Bool.or_eq_true, decide_eq_true_iff] at hc h
      rcases h with rfl | rfl
      · exact hs behind hc rfl
      · exact hb behind hc rfl
    rw [hc]
    rfl
  · rename_i heq
    cases heq

theorem punctuation?_append (hr : Border rest) (cs : List Char) : punctuation? (cs ++ rest) = punctuation? cs := by
  cases cs with
  | nil =>
    cases rest with
    | nil => rfl
    | cons c rest =>
      have hc := not_of_isBorder (p := fun c => "~!@#$%^&*-=+|;:,<.>/?'".toList.contains c) (by decide) (hr c rfl)
      rw [List.nil_append, punctuation?_cons, hc]
      split <;> rfl
  | cons c cs => rw [List.cons_append, punctuation?_cons, punctuation?_cons, head?_any_append hr (by decide)]

/-! ### Names -/

theorem anyNameLength_eq (cs : List Char) : anyNameLength cs = if "r#".toList.isPrefixOf cs then
      if nameLength (cs.drop 2) = 0 || neverRaw ((cs.drop 2).take (nameLength (cs.drop 2))) then none
      else some (nameLength (cs.drop 2) + 2)
    else if nameLength cs = 0 then none
    else some (nameLength cs) := by
  unfold anyNameLength
  split
  · rfl
  · rename_i hn
    have hp : "r#".toList.isPrefixOf cs = false := by
      rw [Bool.eq_false_iff, ne_eq, List.isPrefixOf_iff_prefix]
      rintro ⟨behind, rfl⟩
      exact hn behind rfl
    simp only [hp, Bool.false_eq_true, if_false]

theorem anyNameLength_append (hr : Border rest) (cs : List Char) : anyNameLength (cs ++ rest) = anyNameLength cs := by
  rw [anyNameLength_eq, anyNameLength_eq, isPrefixOf_append_border hr (by decide)]
  split
  · rename_i hp
    have hl : 2 ≤ cs.length := (List.isPrefixOf_iff_prefix.mp hp).length_le
    rw [List.drop_append_of_le_length hl, nameLength_append hr, List.take_append_of_le_length (nameLength_le _)]
  · rw [nameLength_append hr]

theorem anyNameLength_bounds (h : anyNameLength cs = some n) : 0 < n ∧ n ≤ cs.length := by
  rw [anyNameLength_eq] at h
  split at h
  · rename_i hp
    have hl : 2 ≤ cs.length := (List.isPrefixOf_iff_prefix.mp hp).length_le
    have := nameLength_le (cs.drop 2)
    rw [List.length_drop] at this
    split at h
    · cases h
    · cases h
      omega
  · have := nameLength_le cs
    split at h
    · cases h
    · cases h
      omega

theorem literalOpenings_append (hr : Border rest) (cs : List Char) :
    literalOpenings.any (·.isPrefixOf (cs ++ rest)) = literalOpenings.any (·.isPrefixOf cs) := by
  have ho : ∀ opening ∈ literalOpenings, opening.all (!isBorder ·) := by decide
  rw [Bool.eq_iff_iff, List.any_eq_true, List.any_eq_true]
  exact exists_congr fun opening => and_congr_right fun hm => by rw [isPrefixOf_append_border hr (ho opening hm)]

theorem identifierLength_append (hr : Border rest) (cs : List Char) :
    identifierLength (cs ++ rest) = identifierLength cs := by
  unfold identifierLength
  rw [literalOpenings_append hr, anyNameLength_append hr]

theorem identifierLength_bounds (h : identifierLength cs = some n) : 0 < n ∧ n ≤ cs.length := by
  unfold identifierLength at h
  split at h
  · cases h
  · exact anyNameLength_bounds h

theorem lifetimeFollows_append (hr : Border rest) (cs : List Char) : lifetimeFollows (cs ++ rest) = lifetimeFollows cs := by
  unfold lifetimeFollows
  rw [anyNameLength_append hr, isPrefixOf_append_border hr (by decide)]
  cases hn : anyNameLength cs with
  | none => rfl
  | some n =>
    dsimp only
    rw [List.drop_append_of_le_length (anyNameLength_bounds hn).2]
    cases cs.drop n with
    | nil =>
      cases rest with
      | nil => rfl
      | cons c rest =>
        have hc := not_of_isBorder (p := fun c => c = apostrophe || c = '#') (by decide) (hr c rfl)
        rw [Bool.or_eq_false_iff] at hc
        simp [hc.1, hc.2]
    | cons => rfl

theorem rawOpening_eq_none_of_head {q : Quoted} (h : ∀ c ∈ cs.head?, c ≠ '#' ∧ c ≠ quotation) : rawOpening q n cs = none := by
  cases cs with
  | nil => rfl
  | cons c cs =>
    obtain ⟨hh, hq⟩ := h c rfl
    simp [rawOpening, hh, hq]

theorem startsIdentifier_of_anyNameLength {c : Char} (h : anyNameLength (c :: cs) = some n) : startsIdentifier c := by
  rw [anyNameLength_eq] at h
  split at h
  · rename_i hp
    obtain ⟨behind, hb⟩ := List.isPrefixOf_iff_prefix.mp hp
    cases hb
    decide
  · by_contra hs
    rw [nameLength, if_neg hs] at h
    cases h

/-- Behind the letters of a raw literal there is none without its quote. -/
theorem rawOpening_eq_none_of_openings {q : Quoted} (front : List Char)
    (h : ∀ opening ∈ literalOpenings, ∀ behind, front ++ cs ≠ opening ++ behind)
    (hq : front ++ [quotation] ∈ literalOpenings)
    (hh : front ++ ['#'] ∈ literalOpenings ∨ front ++ ['#', quotation] ∈ literalOpenings ∧ front ++ ['#', '#'] ∈ literalOpenings) :
    rawOpening q n cs = none := by
  have hn (opening : List Char) (hm : front ++ opening ∈ literalOpenings) (behind : List Char) : cs ≠ opening ++ behind := by
    rintro rfl
    exact h _ hm behind (List.append_assoc ..).symm
  cases cs with
  | nil => rfl
  | cons c cs =>
    have hcq : c ≠ quotation := by
      rintro rfl
      exact hn _ hq cs rfl
    by_cases hc : c = '#'
    · subst hc
      rcases hh with hh | ⟨hhq, hhh⟩
      · exact absurd rfl (hn _ hh cs)
      · cases cs with
        | nil => rfl
        | cons d cs =>
          have hdq : d ≠ quotation := by
            rintro rfl
            exact hn _ hhq cs rfl
          have hdh : d ≠ '#' := by
            rintro rfl
            exact hn _ hhh cs rfl
          simp [rawOpening, hdh, hdq]
    · refine rawOpening_eq_none_of_head ?_
      rintro _ ⟨⟩
      exact ⟨hc, hcq⟩

theorem lettered_eq_none_of_openings {q : Quoted} {c : Char} (hc : q = .bytes ∧ c = 'b' ∨ q = .cText ∧ c = 'c')
    (h : ∀ opening ∈ literalOpenings, ∀ behind, c :: cs ≠ opening ++ behind) : lettered q cs = none := by
  have hn (opening : List Char) (hm : c :: opening ∈ literalOpenings) (behind : List Char) : cs ≠ opening ++ behind := by
    rintro rfl
    exact h _ hm behind rfl
  have hraw (q : Quoted) (behind : List Char) (hb : cs = 'r' :: behind) : rawOpening q 2 behind = none := by
    subst hb
    refine rawOpening_eq_none_of_openings [c, 'r'] h ?_ (.inl ?_)
    · rcases hc with ⟨-, rfl⟩ | ⟨-, rfl⟩ <;> decide
    · rcases hc with ⟨-, rfl⟩ | ⟨-, rfl⟩ <;> decide
  fun_cases lettered q cs
  · rename_i behind
    refine absurd rfl (hn [quotation] ?_ behind)
    rcases hc with ⟨-, rfl⟩ | ⟨-, rfl⟩ <;> decide
  · exact hraw q _ rfl
  · rename_i behind _ _ ha
    obtain ⟨hq, ha⟩ := Bool.and_eq_true_iff.mp ha
    obtain rfl := of_decide_eq_true hq
    obtain rfl := of_decide_eq_true ha
    refine absurd rfl (hn [apostrophe] ?_ behind)
    rcases hc with ⟨-, rfl⟩ | ⟨hb, -⟩
    · decide
    · cases hb
  · rfl
  · rfl

/-- No literal begins where a name does. -/
theorem literalLength_eq_none (h : identifierLength cs = some n) : literalLength cs = none := by
  unfold identifierLength at h
  split at h
  · cases h
  rename_i ho
  have hopening (opening : List Char) (hm : opening ∈ literalOpenings) (behind : List Char) : cs ≠ opening ++ behind := by
    rintro rfl
    refine ho (List.any_eq_true.mpr ⟨opening, hm, ?_⟩)
    rw [List.isPrefixOf_iff_prefix]
    exact List.prefix_append _ _
  cases cs with
  | nil => rfl
  | cons c cs =>
    have hs := startsIdentifier_of_anyNameLength h
    by_cases hc : c ∈ [quotation, apostrophe, 'r', 'b', 'c']
    · simp only [List.mem_cons, List.not_mem_nil, or_false] at hc
      rcases hc with rfl | rfl | rfl | rfl | rfl
      · exact absurd hs (by decide)
      · exact absurd hs (by decide)
      · rw [literalLength_r]
        exact rawOpening_eq_none_of_openings ['r'] hopening (by decide) (.inr (by decide))
      · rw [literalLength_b]
        exact lettered_eq_none_of_openings (.inl ⟨rfl, rfl⟩) hopening
      · rw [literalLength_c]
        exact lettered_eq_none_of_openings (.inr ⟨rfl, rfl⟩) hopening
    · rw [literalLength_of_ne hc]
      exact numberLength_eq_none hs

/-! ### Tokens -/

theorem leaf?_of_literal {n : Nat} (h : literalLength cs = some n) :
    leaf? cs = some (n, .literal (String.ofList (cs.take n))) := by
  rw [leaf?, h]

theorem leaf?_of_punctuation? {c : Char} (h : literalLength cs = none) (hp : punctuation? cs = some c) : leaf? cs =
    if c = apostrophe then if lifetimeFollows (cs.drop 1) then some (1, .punct c true) else none
    else some (1, .punct c (punctuation? (cs.drop 1)).isSome) := by
  rw [leaf?, h, hp]

theorem leaf?_of_identifierLength {n : Nat} (h : literalLength cs = none) (hp : punctuation? cs = none)
    (hi : identifierLength cs = some n) : leaf? cs =
      if "r#".toList.isPrefixOf cs then some (n, .ident true (String.ofList ((cs.take n).drop 2)))
      else some (n, .ident false (String.ofList (cs.take n))) := by
  rw [leaf?, h, hp, hi]

theorem leaf?_of_none (h : literalLength cs = none) (hp : punctuation? cs = none) (hi : identifierLength cs = none) :
    leaf? cs = if errorMark.isPrefixOf cs then some (errorMark.length, .literal (String.ofList errorMark)) else none := by
  rw [leaf?, h, hp, hi]

/-- A character literal is begun by an apostrophe that no lifetime begins with. -/
theorem singleLength_append_of_none (hr : Border rest) (h : singleLength .text 1 cs = none) (hl : lifetimeFollows cs) :
    singleLength .text 1 (cs ++ rest) = none := by
  unfold lifetimeFollows at hl
  cases cs with
  | nil => cases hl
  | cons c cs =>
    cases hn : anyNameLength (c :: cs) with
    | none =>
      rw [hn] at hl
      cases hl
    | some n =>
      have hs := startsIdentifier_of_anyNameLength hn
      have hc : c ≠ backslash := by
        rintro rfl
        exact absurd hs (by decide)
      have hq : Quoted.text.admits c := rfl
      rw [singleLength_of_ne hc, if_pos hq] at h
      rw [List.cons_append, singleLength_of_ne hc, if_pos hq]
      exact closing_append_of_none hr h

theorem literalLength_append_of_none (hr : Border rest) (h : literalLength cs = none) (hl : (leaf? cs).isSome) :
    literalLength (cs ++ rest) = none := by
  cases hi : identifierLength cs with
  | some n => exact literalLength_eq_none ((identifierLength_append hr cs).trans hi)
  | none =>
    cases cs with
    | nil => cases hl
    | cons c cs =>
      by_cases hc : c ∈ [quotation, apostrophe, 'r', 'b', 'c']
      · have hmark (hp : punctuation? (c :: cs) = none) (he : errorMark.isPrefixOf (c :: cs) = false) :
            literalLength (c :: cs ++ rest) = none := by
          rw [leaf?_of_none h hp hi, he] at hl
          cases hl
        simp only [List.mem_cons, List.not_mem_nil, or_false] at hc
        rcases hc with rfl | rfl | rfl | rfl | rfl
        · exact hmark rfl rfl
        · have hp : punctuation? (apostrophe :: cs) = some apostrophe := rfl
          rw [leaf?_of_punctuation? h hp, if_pos rfl, List.drop_one, List.tail_cons] at hl
          rw [literalLength_apostrophe] at h
          rw [List.cons_append, literalLength_apostrophe]
          refine singleLength_append_of_none hr h ?_
          by_contra hn
          rw [if_neg hn] at hl
          cases hl
        · exact hmark rfl rfl
        · exact hmark rfl rfl
        · exact hmark rfl rfl
      · rw [List.cons_append, literalLength_of_ne hc, ← List.cons_append, numberLength_append hr, ← literalLength_of_ne hc]
        exact h

/-- A token in front of a border. -/
theorem leaf?_append (hr : Border rest) {make : Extent → Token} (h : leaf? cs = some (n, make)) :
    leaf? (cs ++ rest) = some (n, make) ∧ 0 < n ∧ n ≤ cs.length := by
  cases hl : literalLength cs with
  | some k =>
    obtain ⟨ha, hb⟩ := literalLength_append hr hl
    rw [leaf?_of_literal hl] at h
    rw [leaf?_of_literal ha, List.take_append_of_le_length hb.2]
    cases h
    exact ⟨rfl, hb⟩
  | none =>
    have ha := literalLength_append_of_none hr hl (Option.isSome_of_eq_some h)
    have hne : cs ≠ [] := by
      rintro rfl
      cases h
    have hpos := List.length_pos_iff.mpr hne
    have hpunctuation : punctuation? (cs ++ rest) = punctuation? cs := punctuation?_append hr cs
    have hidentifier : identifierLength (cs ++ rest) = identifierLength cs := identifierLength_append hr cs
    cases hp : punctuation? cs with
    | some c =>
      rw [leaf?_of_punctuation? hl hp] at h
      rw [leaf?_of_punctuation? ha (hpunctuation.trans hp), List.drop_append_of_le_length hpos, lifetimeFollows_append hr,
        punctuation?_append hr]
      refine ⟨h, ?_⟩
      repeat' split at h
      all_goals cases h
      all_goals exact ⟨Nat.one_pos, hpos⟩
    | none =>
      cases hi : identifierLength cs with
      | some k =>
        have hk := identifierLength_bounds hi
        rw [leaf?_of_identifierLength hl hp hi] at h
        rw [leaf?_of_identifierLength ha (hpunctuation.trans hp) (hidentifier.trans hi),
          isPrefixOf_append_border hr (by decide), List.take_append_of_le_length hk.2]
        refine ⟨h, ?_⟩
        split at h
        all_goals
          cases h
          exact hk
      | none =>
        rw [leaf?_of_none hl hp hi] at h
        rw [leaf?_of_none ha (hpunctuation.trans hp) (hidentifier.trans hi)]
        split at h
        · rename_i he
          rw [List.isPrefixOf_iff_prefix] at he
          cases h
          rw [if_pos (List.isPrefixOf_iff_prefix.mpr (he.trans (List.prefix_append _ _)))]
          exact ⟨rfl, by decide, he.length_le⟩
        · cases h

end GeneratorHost.Token
