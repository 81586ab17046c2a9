import GeneratorHost.Proofs.Token.Leaves
import GeneratorHost.Proofs.Report.Comment

/-! Blanks and comments in front of a line end: they are passed over, or read as documentation, the same whatever the
lines behind are. -/
namespace GeneratorHost.Token
open Text

variable {cs tl comment : List Char} {m n depth : Nat} {inner : Bool}

/-! ### Lines -/

theorem lineLength_cons {c : Char} (hc : c ≠ '\n') (hr : ¬ (c = '\r' ∧ cs.head? = some '\n')) (n : Nat) :
    lineLength n (c :: cs) = lineLength (n + 1) cs := by
  rw [lineLength]
  · exact hc
  · rintro behind rfl rfl
    exact hr ⟨rfl, rfl⟩

theorem lineLength_eq (n : Nat) (cs : List Char) : lineLength n cs = n + lineLength 0 cs := by
  induction cs generalizing n with
  | nil => rfl
  | cons c cs ih =>
    by_cases hc : c = '\n'
    · subst hc
      rfl
    · by_cases hr : c = '\r' ∧ cs.head? = some '\n'
      · obtain ⟨rfl, hh⟩ := hr
        obtain ⟨behind, rfl⟩ := List.head?_eq_some_iff.mp hh
        rfl
      · rw [lineLength_cons hc hr, lineLength_cons hc hr, ih, ih 1]
        omega

theorem lineLength_succ {c : Char} (hc : c ≠ '\n') (hr : ¬ (c = '\r' ∧ cs.head? = some '\n')) :
    lineLength 0 (c :: cs) = lineLength 0 cs + 1 := by
  rw [lineLength_cons hc hr, lineLength_eq, Nat.add_comm]

/-- A line comment goes to the line feed. -/
theorem lineCommentLength_eq (cs : List Char) : lineCommentLength cs = (cs.takeWhile (· ≠ '\n')).length := by
  induction cs with
  | nil => rfl
  | cons c cs ih =>
    by_cases hc : c = '\n'
    · subst hc
      rfl
    · by_cases hr : c = '\r' ∧ cs.head? = some '\n'
      · obtain ⟨rfl, hh⟩ := hr
        obtain ⟨behind, rfl⟩ := List.head?_eq_some_iff.mp hh
        rfl
      · rw [List.takeWhile_cons, if_pos (decide_eq_true hc), List.length_cons, ← ih]
        unfold lineCommentLength
        simp only [lineLength_succ hc hr, List.drop_succ_cons]
        split
        · rfl
        · rfl

theorem lineCommentLength_append (cs tl : List Char) :
    lineCommentLength (cs ++ '\n' :: tl) = lineCommentLength cs ∧ lineCommentLength cs ≤ cs.length := by
  rw [lineCommentLength_eq, lineCommentLength_eq]
  refine ⟨?_, (List.takeWhile_sublist _).length_le⟩
  induction cs with
  | nil => rfl
  | cons c cs ih =>
    rw [List.cons_append, List.takeWhile_cons, List.takeWhile_cons]
    split
    · rw [List.length_cons, List.length_cons, ih]
    · rfl

theorem carriagesEndLines_cons (c : Char) (cs : List Char) :
    carriagesEndLines (c :: cs) = ((c ≠ '\r' || cs.head? = some '\n') && carriagesEndLines cs) := by
  by_cases hc : c = '\r'
  · subst hc
    cases cs with
    | nil => rfl
    | cons d cs =>
      by_cases hd : d = '\n'
      · subst hd
        rw [carriagesEndLines, carriagesEndLines]
        · rfl
        · exact fun _ h => absurd h (by decide)
        · decide
      · rw [carriagesEndLines]
        · simp [hd]
        · rintro behind ⟨⟩
          exact hd rfl
  · rw [carriagesEndLines]
    · simp [hc]
    · rintro behind rfl
      exact absurd rfl hc
    · exact hc

/-- The length of a line in front of a line feed, if no carriage return is its last character. -/
theorem lineLength_append (h : carriagesEndLines (cs.take (lineLength 0 cs))) (tl : List Char) :
    lineLength 0 (cs ++ '\n' :: tl) = lineLength 0 cs := by
  induction cs with
  | nil => rfl
  | cons c cs ih =>
    by_cases hc : c = '\n'
    · subst hc
      rfl
    · by_cases hr : c = '\r' ∧ cs.head? = some '\n'
      · obtain ⟨rfl, hh⟩ := hr
        obtain ⟨behind, rfl⟩ := List.head?_eq_some_iff.mp hh
        rfl
      · rw [lineLength_succ hc hr, List.take_succ_cons, carriagesEndLines_cons, Bool.and_eq_true] at h
        have hcr : c ≠ '\r' := by
          rintro rfl
          have hh : (cs.take (lineLength 0 cs)).head? = some '\n' := by simpa using h.1
          cases cs with
          | nil => cases hh
          | cons d cs =>
            cases hl : lineLength 0 (d :: cs) with
            | zero =>
              rw [hl] at hh
              cases hh
            | succ l =>
              rw [hl] at hh
              exact hr ⟨rfl, hh⟩
        rw [List.cons_append, lineLength_succ hc (fun hr => hcr hr.1), lineLength_succ hc hr, ih h.2]

theorem lineLength_le (cs : List Char) : lineLength 0 cs ≤ cs.length := by
  induction cs with
  | nil => exact Nat.le_refl 0
  | cons c cs ih =>
    by_cases hc : c = '\n'
    · subst hc
      exact Nat.zero_le _
    · by_cases hr : c = '\r' ∧ cs.head? = some '\n'
      · obtain ⟨rfl, hh⟩ := hr
        obtain ⟨behind, rfl⟩ := List.head?_eq_some_iff.mp hh
        exact Nat.zero_le _
      · rw [lineLength_succ hc hr]
        exact Nat.succ_le_succ ih

/-! ### Blocks -/

/-- A block comment that is closed ends where it does in front of anything. -/
theorem blockLength_append (h : blockLength depth n cs = some m) (rest : List Char) :
    blockLength depth n (cs ++ rest) = some m ∧ n < m ∧ m ≤ n + cs.length := by
  fun_induction blockLength depth n cs with
  | case1 depth n cs ih =>
    rw [List.cons_append, List.cons_append, blockLength, List.length_cons, List.length_cons]
    obtain ⟨ha, hb⟩ := ih h
    exact ⟨ha, by omega⟩
  | case2 depth n cs hd =>
    rw [List.cons_append, List.cons_append, blockLength, if_pos hd, List.length_cons, List.length_cons]
    cases h
    exact ⟨rfl, by omega⟩
  | case3 depth n cs hd ih =>
    rw [List.cons_append, List.cons_append, blockLength, if_neg hd, List.length_cons, List.length_cons]
    obtain ⟨ha, hb⟩ := ih h
    exact ⟨ha, by omega⟩
  | case4 depth n c cs ho hc ih =>
    obtain ⟨ha, hb⟩ := ih h
    cases cs with
    | nil => cases h
    | cons d cs =>
      rw [List.cons_append, blockLength_cons _ _, List.length_cons]
      · exact ⟨ha, by omega⟩
      · rw [pair_prefix_cons_iff]
        rintro ⟨rfl, hd⟩
        cases hd
        exact ho cs rfl rfl
      · rw [pair_prefix_cons_iff]
        rintro ⟨rfl, hd⟩
        cases hd
        exact hc cs rfl rfl
  | case5 => cases h

/-! ### What begins a comment -/

/-- Whether a text begins with a comment, documentation included. -/
def beginsComment (cs : List Char) : Bool := "//".toList.isPrefixOf cs || "/*".toList.isPrefixOf cs

theorem beginsComment_cons (c : Char) (cs : List Char) :
    beginsComment (c :: cs) = (c = '/' && cs.head?.any fun d => d = '/' || d = '*') := by
  cases cs with
  | nil => simp [beginsComment, List.isPrefixOf]
  | cons d cs =>
    rw [Bool.eq_iff_iff]
    simp [beginsComment, List.isPrefixOf, @eq_comm _ c, @eq_comm _ d, and_or_left]

theorem isPrefixOf_append_cons {opening : List Char} {c : Char} (hc : c ∉ opening) (cs rest : List Char) :
    opening.isPrefixOf (cs ++ c :: rest) = opening.isPrefixOf cs := by
  induction opening generalizing cs with
  | nil => rfl
  | cons a opening ih =>
    rw [List.mem_cons, not_or] at hc
    cases cs with
    | nil => simp [List.isPrefixOf, Ne.symm hc.1]
    | cons d cs => rw [List.cons_append, List.isPrefixOf, List.isPrefixOf, ih hc.2]

theorem not_prefix_of_head {a : Char} (h : ∀ behind, ¬ cs = a :: behind) (opening : List Char) : ¬ a :: opening <+: cs := by
  rintro ⟨behind, rfl⟩
  exact h _ rfl

theorem blankLength_eq (cs : List Char) : blankLength cs =
    if "//".toList.isPrefixOf cs then
      if "///".toList.isPrefixOf cs && !"////".toList.isPrefixOf cs || "//!".toList.isPrefixOf cs then 0
      else lineCommentLength cs
    else if "/*".toList.isPrefixOf cs then
      if "/**/".toList.isPrefixOf cs then 4
      else if "/**".toList.isPrefixOf cs && !"/***".toList.isPrefixOf cs || "/*!".toList.isPrefixOf cs then 0
      else (blockCommentLength cs).getD 0
    else if cs.head?.any separates then 1
    else 0 := by
  unfold blankLength
  split
  case h_10 c _ _ _ _ _ _ _ _ _ _ =>
    by_cases hc : c = '/'
    · subst hc
      simp_all [not_prefix_of_head]
      rfl
    · simp [List.isPrefixOf, Ne.symm hc]
      rfl
  all_goals simp_all [List.isPrefixOf, not_prefix_of_head]

theorem docComment?_eq (cs : List Char) : docComment? cs =
    if "//".toList.isPrefixOf cs then
      if "//!".toList.isPrefixOf cs then
        some (3 + lineCommentLength (cs.drop 3), (cs.drop 3).take (lineLength 0 (cs.drop 3)), true)
      else if "///".toList.isPrefixOf cs && !"////".toList.isPrefixOf cs then
        some (3 + lineCommentLength (cs.drop 3), (cs.drop 3).take (lineLength 0 (cs.drop 3)), false)
      else none
    else if "/*!".toList.isPrefixOf cs then (blockLength 1 2 (cs.drop 2)).map fun n => (n, (cs.drop 3).take (n - 5), true)
    else if "/**".toList.isPrefixOf cs && !"/***".toList.isPrefixOf cs then
      (blockLength 1 2 (cs.drop 2)).map fun n => (n, (cs.drop 3).take (n - 5), false)
    else none := by
  unfold docComment?
  split
  case h_5 hl hb ho ht =>
    have hf (opening : List Char) (h : ∀ behind, cs = opening ++ behind → False) : opening.isPrefixOf cs = false := by
      rw [Bool.eq_false_iff, ne_eq, List.isPrefixOf_iff_prefix]
      rintro ⟨behind, hbehind⟩
      exact h behind hbehind.symm
    rw [hf "//!".toList hl, hf "/*!".toList hb, hf "///".toList ho, hf "/**".toList ht]
    simp
  all_goals try split
  all_goals simp_all [List.isPrefixOf, not_prefix_of_head]

/-! ### In front of a line end -/

theorem length_of_isPrefixOf {opening : List Char} (h : opening.isPrefixOf cs) : opening.length ≤ cs.length :=
  (List.isPrefixOf_iff_prefix.mp h).length_le

/-- Documentation is read in front of a line end as it is at the end of the text. -/
theorem docComment?_append (h : docComment? cs = some (n, comment, inner)) (hc : carriagesEndLines comment) (tl : List Char) :
    docComment? (cs ++ '\n' :: tl) = some (n, comment, inner) ∧ 0 < n ∧ n ≤ cs.length := by
  have hline (h3 : 3 ≤ cs.length) {inner' : Bool} (h : some (3 + lineCommentLength (cs.drop 3),
        (cs.drop 3).take (lineLength 0 (cs.drop 3)), inner') = some (n, comment, inner)) :
      some (3 + lineCommentLength ((cs ++ '\n' :: tl).drop 3),
        ((cs ++ '\n' :: tl).drop 3).take (lineLength 0 ((cs ++ '\n' :: tl).drop 3)), inner') = some (n, comment, inner) ∧
      0 < n ∧ n ≤ cs.length := by
    cases h
    obtain ⟨ha, hle⟩ := lineCommentLength_append (cs.drop 3) tl
    rw [List.drop_append_of_le_length h3, ha, lineLength_append hc, List.take_append_of_le_length (lineLength_le _)]
    rw [List.length_drop] at hle
    exact ⟨rfl, by omega, by omega⟩
  have hblock (h3 : 3 ≤ cs.length) {inner' : Bool} (h : (blockLength 1 2 (cs.drop 2)).map (fun n =>
        (n, (cs.drop 3).take (n - 5), inner')) = some (n, comment, inner)) :
      (blockLength 1 2 ((cs ++ '\n' :: tl).drop 2)).map (fun n =>
        (n, ((cs ++ '\n' :: tl).drop 3).take (n - 5), inner')) = some (n, comment, inner) ∧ 0 < n ∧ n ≤ cs.length := by
    cases hl : blockLength 1 2 (cs.drop 2) with
    | none =>
      rw [hl] at h
      cases h
    | some m =>
      obtain ⟨ha, hb⟩ := blockLength_append hl ('\n' :: tl)
      rw [hl] at h
      rw [List.length_drop] at hb
      rw [List.drop_append_of_le_length (show 2 ≤ cs.length by omega), List.drop_append_of_le_length h3, ha,
        Option.map_some, List.take_append_of_le_length (by rw [List.length_drop]; omega)]
      cases h
      exact ⟨rfl, by omega, by omega⟩
  rw [docComment?_eq] at h ⊢
  repeat rw [isPrefixOf_append_cons (by decide) cs tl]
  split at h
  · rename_i hp
    rw [if_pos hp]
    split at h
    · rename_i hi
      rw [if_pos hi]
      exact hline (length_of_isPrefixOf hi) h
    · rename_i hi
      rw [if_neg hi]
      split at h
      · rename_i ho
        rw [if_pos ho]
        exact hline (length_of_isPrefixOf (Bool.and_eq_true_iff.mp ho).1) h
      · cases h
  · rename_i hp
    rw [if_neg hp]
    split at h
    · rename_i hi
      rw [if_pos hi]
      exact hblock (length_of_isPrefixOf hi) h
    · rename_i hi
      rw [if_neg hi]
      split at h
      · rename_i ho
        rw [if_pos ho]
        exact hblock (length_of_isPrefixOf (Bool.and_eq_true_iff.mp ho).1) h
      · cases h

/-! ### Texts that no comment begins -/

theorem blankLength_of_not_beginsComment (h : beginsComment cs = false) :
    blankLength cs = if cs.head?.any separates then 1 else 0 := by
  rw [beginsComment, Bool.or_eq_false_iff] at h
  rw [blankLength_eq, h.1, h.2]
  rfl

theorem docComment?_of_not_beginsComment (h : beginsComment cs = false) : docComment? cs = none := by
  rw [beginsComment, Bool.or_eq_false_iff] at h
  have hf (opening : List Char) {front : List Char} (hp : front <+: opening) (hf : front.isPrefixOf cs = false) :
      opening.isPrefixOf cs = false := by
    rw [Bool.eq_false_iff, ne_eq, List.isPrefixOf_iff_prefix] at hf ⊢
    exact fun ho => hf (hp.trans ho)
  rw [docComment?_eq, h.1, hf "/*!".toList (by decide) h.2, hf "/**".toList (by decide) h.2]
  rfl

end GeneratorHost.Token
