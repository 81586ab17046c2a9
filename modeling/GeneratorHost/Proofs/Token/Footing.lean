import GeneratorHost.Proofs.Token.Scans

/-! Texts with lines behind them. What a text reads as alone it reads as in front of a line end, in the same rounds. -/
namespace GeneratorHost.Token
open Text

variable {cs tl : List Char} {n fuel : Nat} {frames : List Frame} {done ts : List Token} {c : Cursor} {s s' : Scan}

/-! ### Blanks -/

theorem blockCommentLength_eq (h : "/*".toList.isPrefixOf cs) : blockCommentLength cs = blockLength 1 2 (cs.drop 2) := by
  obtain ⟨behind, rfl⟩ := List.isPrefixOf_iff_prefix.mp h
  rfl

/-- A blank or a comment in front of a line end is as long as at the end of the text. -/
theorem blankLength_append (h : blankLength cs = n + 1) (tl : List Char) :
    blankLength (cs ++ '\n' :: tl) = n + 1 ∧ n + 1 ≤ cs.length := by
  rw [blankLength_eq] at h ⊢
  repeat rw [isPrefixOf_append_cons (by decide) cs tl]
  split at h
  · rename_i hl
    rw [if_pos hl]
    split at h
    · cases h
    · rename_i hd
      rw [if_neg hd, (lineCommentLength_append cs tl).1, h]
      exact ⟨rfl, h ▸ (lineCommentLength_append cs tl).2⟩
  · rename_i hl
    rw [if_neg hl]
    split at h
    · rename_i hb
      rw [if_pos hb]
      have h2 : 2 ≤ cs.length := length_of_isPrefixOf hb
      split at h
      · rename_i he
        rw [if_pos he, ← h]
        exact ⟨rfl, length_of_isPrefixOf he⟩
      · rename_i he
        rw [if_neg he]
        split at h
        · cases h
        · rename_i hd
          rw [if_neg hd]
          rw [blockCommentLength_eq hb] at h
          cases hk : blockLength 1 2 (cs.drop 2) with
          | none =>
            rw [hk] at h
            cases h
          | some m =>
            obtain rfl : m = n + 1 := by rw [hk] at h; exact h
            obtain ⟨ha, -, hle⟩ := blockLength_append hk ('\n' :: tl)
            rw [List.length_drop] at hle
            rw [← List.drop_append_of_le_length h2] at ha
            refine ⟨?_, by omega⟩
            rw [blockCommentLength_eq (by rw [isPrefixOf_append_cons (by decide) cs tl]; exact hb), ha]
            rfl
    · rename_i hb
      rw [if_neg hb]
      cases cs with
      | nil => cases h
      | cons d cs =>
        refine ⟨h, ?_⟩
        split at h
        · cases h
          exact Nat.succ_le_succ (Nat.zero_le _)
        · cases h

/-- Documentation is no blank in front of a line end either. -/
theorem blankLength_append_of_docComment? (hb : blankLength cs = 0) (hd : (docComment? cs).isSome) (tl : List Char) :
    blankLength (cs ++ '\n' :: tl) = 0 := by
  have hcomment : beginsComment cs := by
    by_contra hn
    rw [Bool.not_eq_true] at hn
    rw [docComment?_of_not_beginsComment hn] at hd
    cases hd
  rw [beginsComment, Bool.or_eq_true] at hcomment
  rw [blankLength_eq] at hb ⊢
  rw [docComment?_eq] at hd
  repeat rw [isPrefixOf_append_cons (by decide) cs tl]
  split at hd
  · rename_i hl
    rw [if_pos hl] at hb ⊢
    split at hd
    · rename_i hi
      rw [hi, Bool.or_true, if_pos rfl]
    · split at hd
      · rename_i ho
        rw [ho, Bool.true_or, if_pos rfl]
      · cases hd
  · rename_i hl
    rw [if_neg hl] at hb ⊢
    rw [if_pos (hcomment.resolve_left hl)] at hb ⊢
    split at hb
    · cases hb
    · rename_i he
      rw [if_neg he]
      split at hd
      · rename_i hi
        rw [hi, Bool.or_true, if_pos rfl]
      · split at hd
        · rename_i ho
          rw [ho, Bool.true_or, if_pos rfl]
        · cases hd

theorem opens_append {delimiter : Delimiter} (h : opens cs = some delimiter) (tl : List Char) :
    opens (cs ++ '\n' :: tl) = some delimiter := by
  obtain ⟨c, behind, rfl, hc⟩ := head_of_opens h
  simp only [List.mem_cons, List.not_mem_nil, or_false] at hc
  rcases hc with rfl | rfl | rfl
  · have hm : errorMark.isPrefixOf ('(' :: behind ++ '\n' :: tl) = errorMark.isPrefixOf ('(' :: behind) :=
      isPrefixOf_append_cons (by decide) _ tl
    rw [List.cons_append] at hm ⊢
    rw [opens] at h ⊢
    rwa [hm]
  · exact h
  · exact h

theorem closes_append {delimiter : Delimiter} (h : closes cs = some delimiter) (tl : List Char) :
    closes (cs ++ '\n' :: tl) = some delimiter := by
  obtain ⟨c, behind, rfl, hc⟩ := head_of_closes h
  simp only [List.mem_cons, List.not_mem_nil, or_false] at hc
  rcases hc with rfl | rfl | rfl <;> exact h

/-! ### Rounds -/

/-- A text with more behind it. -/
def Cursor.append (c : Cursor) (more : List Char) : Cursor := ⟨c.rest ++ more, c.place⟩

/-- A scan of a text with more behind it. -/
def Scan.append (s : Scan) (more : List Char) : Scan := { s with cursor := s.cursor.append more }

theorem advance_append (h : n ≤ c.rest.length) (more : List Char) : (c.append more).advance n = (c.advance n).append more := by
  induction n generalizing c with
  | zero => rfl
  | succ n ih =>
    obtain ⟨_ | ⟨x, xs⟩, p⟩ := c
    · cases h
    · exact ih (c := ⟨xs, p.after x⟩) (Nat.le_of_succ_le_succ h)

theorem Round.append (h : Round s s') (tl : List Char) : Round (s.append ('\n' :: tl)) (s'.append ('\n' :: tl)) := by
  cases h with
  | @blank frames done c n h =>
    obtain ⟨ha, hle⟩ := blankLength_append h tl
    have hr : Round ⟨frames, done, c.append ('\n' :: tl)⟩ _ := .blank ha
    rw [advance_append hle] at hr
    exact hr
  | @documentation frames done c n comment inner hb h hc =>
    obtain ⟨ha, -, hle⟩ := docComment?_append h hc tl
    have hr : Round ⟨frames, done, c.append ('\n' :: tl)⟩ _ :=
      .documentation (blankLength_append_of_docComment? hb (Option.isSome_of_eq_some h) tl) ha hc
    rw [advance_append hle] at hr
    exact hr
  | @opening frames done c delimiter h =>
    have hne := List.length_pos_iff.mpr (blankLength_of_opens h).1
    have hr : Round ⟨frames, done, c.append ('\n' :: tl)⟩ _ := .opening (opens_append h tl)
    rw [advance_append hne] at hr
    exact hr
  | @closing frame frames done c h =>
    have hne := List.length_pos_iff.mpr (blankLength_of_closes h).1
    have hr : Round ⟨frame :: frames, done, c.append ('\n' :: tl)⟩ _ := .closing (closes_append h tl)
    rw [advance_append hne] at hr
    exact hr
  | @leaf frames done c n make hp h =>
    have hborder : Border ('\n' :: tl) := border_cons rfl tl
    obtain ⟨ha, -, hle⟩ := leaf?_append hborder h
    have hr : Round ⟨frames, done, c.append ('\n' :: tl)⟩ _ := .leaf (hp.append hborder h) ha
    rw [advance_append hle] at hr
    exact hr

theorem Scans.append (h : Scans s s') (tl : List Char) : Scans (s.append ('\n' :: tl)) (s'.append ('\n' :: tl)) :=
  h.lift _ fun _ _ hr => hr.append tl

/-! ### Blanks one after the other -/

/-- A blank is passed over. -/
def Cursor.Passes (c c' : Cursor) : Prop := ∃ n, blankLength c.rest = n + 1 ∧ c' = c.advance (n + 1)

/-- Blanks one after the other. -/
abbrev Blanks : Cursor → Cursor → Prop := Relation.ReflTransGen Cursor.Passes

theorem blanks_skipBlanks (fuel : Nat) (c : Cursor) : Blanks c (skipBlanks fuel c) := by
  induction fuel generalizing c with
  | zero => exact .refl
  | succ fuel ih =>
    rw [skipBlanks]
    split
    · exact .refl
    · rename_i n hb
      exact .head ⟨n, hb, rfl⟩ (ih _)

/-- All blanks are skipped. -/
theorem blankLength_skipBlanks (h : c.rest.length ≤ fuel) : blankLength (skipBlanks fuel c).rest = 0 := by
  induction fuel generalizing c with
  | zero =>
    rw [Nat.le_zero, List.length_eq_zero_iff] at h
    rw [skipBlanks, h]
    rfl
  | succ fuel ih =>
    rw [skipBlanks]
    split
    · assumption
    · refine ih ?_
      rw [length_advance]
      omega

theorem Blanks.skipBlanks_eq {c' : Cursor} (h : Blanks c c') (hb : blankLength c'.rest = 0) (hf : c.rest.length ≤ fuel) :
    skipBlanks fuel c = c' := by
  induction h using Relation.ReflTransGen.head_induction_on generalizing fuel with
  | refl => exact skipBlanks_of_blankLength_eq_zero hb fuel
  | head hpass _ ih =>
    obtain ⟨n, hn, rfl⟩ := hpass
    have hpos := List.length_pos_iff.mpr (ne_nil_of_blankLength hn)
    obtain ⟨fuel, rfl⟩ : ∃ k, fuel = k + 1 := ⟨fuel - 1, by omega⟩
    rw [skipBlanks, hn]
    refine ih ?_
    rw [length_advance]
    omega

theorem Blanks.append {c' : Cursor} (h : Blanks c c') (tl : List Char) :
    Blanks (c.append ('\n' :: tl)) (c'.append ('\n' :: tl)) := by
  refine Relation.ReflTransGen.lift (Cursor.append · ('\n' :: tl)) ?_ _ _ h
  rintro c _ ⟨n, hn, rfl⟩
  obtain ⟨ha, hle⟩ := blankLength_append hn tl
  exact ⟨n, ha, (advance_append hle _).symm⟩

theorem Blanks.scans {c' : Cursor} (h : Blanks c c') (frames : List Frame) (done : List Token) :
    Scans ⟨frames, done, c⟩ ⟨frames, done, c'⟩ := by
  refine h.lift (Scan.mk frames done) ?_
  rintro c _ ⟨n, hn, rfl⟩
  exact .blank hn

theorem Blanks.length_le {c' : Cursor} (h : Blanks c c') : c'.rest.length ≤ c.rest.length := by
  induction h with
  | refl => exact Nat.le_refl _
  | tail _ hpass ih =>
    obtain ⟨n, -, rfl⟩ := hpass
    rw [length_advance]
    omega

/-! ### What is read is scanned -/

/-- What is read is what a scan reads. -/
theorem scans_of_readAll (hf : c.rest.length < fuel) (h : readAll fuel frames done c = some ts) :
    ∃ p, Scans ⟨frames, done, c⟩ ⟨[], ts.reverse, ⟨[], p⟩⟩ := by
  induction fuel generalizing frames done c with
  | zero => cases h
  | succ fuel ih =>
    have hblank := blankLength_skipBlanks (Nat.le_of_lt_succ hf)
    have hle := (blanks_skipBlanks fuel c).length_le
    have hskip := (blanks_skipBlanks fuel c).scans frames done
    rw [readAll] at h
    generalize skipBlanks fuel c = c' at h hblank hle hskip
    split at h
    · rename_i n comment inner hd
      split at h
      · rename_i hc
        obtain ⟨-, hn, hl⟩ := docComment?_append hd hc []
        obtain ⟨p, hs⟩ := ih (by rw [length_advance]; omega) h
        exact ⟨p, hskip.trans (.head (.documentation hblank hd hc) hs)⟩
      · cases h
    rename_i hd
    split at h
    · rename_i he
      split at h
      · rename_i hfr
        cases h
        obtain rfl := List.isEmpty_iff.mp hfr
        obtain ⟨_, p⟩ := c'
        obtain rfl := List.isEmpty_iff.mp he
        exact ⟨p, by rw [List.reverse_reverse]; exact hskip⟩
      · cases h
    rename_i he
    have hne : c'.rest ≠ [] := fun hr => he (List.isEmpty_iff.mpr hr)
    have hpos := List.length_pos_iff.mpr hne
    split at h
    · rename_i delimiter ho
      obtain ⟨p, hs⟩ := ih (by rw [length_advance]; omega) h
      exact ⟨p, hskip.trans (.head (.opening ho) hs)⟩
    · rename_i delimiter ho hcl
      cases frames with
      | nil => cases h
      | cons frame frames =>
        dsimp only at h
        split at h
        · rename_i hdelimiter
          subst hdelimiter
          obtain ⟨p, hs⟩ := ih (by rw [length_advance]; omega) h
          exact ⟨p, hskip.trans (.head (.closing hcl) hs)⟩
        · cases h
    · rename_i ho hcl
      split at h
      · rename_i n make hleaf
        obtain ⟨hn, hl⟩ := leaf?_bounds hleaf
        obtain ⟨p, hs⟩ := ih (by rw [length_advance]; omega) h
        exact ⟨p, hskip.trans (.head (.leaf ⟨hne, hblank, hd, ho, hcl⟩ hleaf) hs)⟩
      · cases h

theorem length_start_le (cs : List Char) : (Cursor.start cs).rest.length ≤ cs.length := by
  cases cs with
  | nil => exact Nat.le_refl _
  | cons c cs =>
    rw [Cursor.start]
    split
    · exact Nat.le_succ _
    · exact Nat.le_refl _

theorem scans_of_ofChars? (h : ofChars? cs = some ts) : ∃ p, Scans ⟨[], [], .start cs⟩ ⟨[], ts.reverse, ⟨[], p⟩⟩ := by
  rw [ofChars?_eq] at h
  exact scans_of_readAll (Nat.lt_succ_of_le (Nat.le_succ_of_le (length_start_le cs))) h

theorem start_append (cs tl : List Char) : Cursor.start (cs ++ '\n' :: tl) = (Cursor.start cs).append ('\n' :: tl) := by
  cases cs with
  | nil =>
    rw [List.nil_append, Cursor.start.eq_def ('\n' :: tl)]
    exact if_neg (by decide)
  | cons c cs =>
    rw [List.cons_append, Cursor.start, Cursor.start]
    split <;> rfl

/-- A text reads in front of lines as it does alone, if the lines are read at any place. -/
theorem ofChars?_append {P : List Token → Prop} (h : ofChars? cs = some ts) (hs : ∀ done p, ∃ ts' p', P ts' ∧
    Scans ⟨[], done, ⟨'\n' :: tl, p⟩⟩ ⟨[], ts'.reverse ++ done, ⟨[], p'⟩⟩) :
    ∃ ts', P ts' ∧ ofChars? (cs ++ '\n' :: tl) = some (ts ++ ts') := by
  obtain ⟨p, hscans⟩ := scans_of_ofChars? h
  obtain ⟨ts', p', hP, hmore⟩ := hs ts.reverse p
  refine ⟨ts', hP, ?_⟩
  have hall : Scans ⟨[], [], .start (cs ++ '\n' :: tl)⟩ ⟨[], ts'.reverse ++ ts.reverse, ⟨[], p'⟩⟩ := by
    rw [start_append]
    exact (hscans.append tl).trans hmore
  rw [ofChars?_eq, readAll_of_scans hall (Nat.lt_succ_of_le (Nat.le_succ_of_le (length_start_le _))), List.reverse_append,
    List.reverse_reverse, List.reverse_reverse]

/-! ### Lines that name an interpreter -/

/-- A block comment that is left open stays open where nothing ends one. -/
theorem blockLength_eq_none {depth : Nat} (h : ¬ "*/".toList <:+: cs) : blockLength depth n cs = none := by
  fun_induction blockLength depth n cs with
  | case1 depth n cs ih => exact ih fun hi => h (hi.trans ⟨['/', '*'], [], by simp⟩)
  | case2 depth n cs => exact absurd ⟨[], cs, rfl⟩ h
  | case3 depth n cs => exact absurd ⟨[], cs, rfl⟩ h
  | case4 depth n c cs _ _ ih => exact ih fun hi => h (hi.trans (List.suffix_cons c cs).isInfix)
  | case5 => rfl

theorem blockLength_append_of_none {depth : Nat} (h : blockLength depth n cs = none) (hc : ¬ "*/".toList <:+: '\n' :: tl) :
    blockLength depth n (cs ++ '\n' :: tl) = none := by
  fun_induction blockLength depth n cs with
  | case1 depth n cs ih => exact ih h
  | case2 depth n cs hd => cases h
  | case3 depth n cs hd ih =>
    rw [List.cons_append, List.cons_append, blockLength, if_neg hd]
    exact ih h
  | case4 depth n c cs ho hd ih =>
    rw [List.cons_append, blockLength_cons _ _]
    · exact ih h
    · rw [pair_prefix_cons_iff]
      rintro ⟨rfl, hh⟩
      cases cs with
      | nil => cases hh
      | cons d cs =>
        cases hh
        exact ho cs rfl rfl
    · rw [pair_prefix_cons_iff]
      rintro ⟨rfl, hh⟩
      cases cs with
      | nil => cases hh
      | cons d cs =>
        cases hh
        exact hd cs rfl rfl
  | case5 => exact blockLength_eq_none hc

/-- What begins with no blank begins with none in front of lines that end no comment. -/
theorem blankLength_append_of_none (h : blankLength cs = 0) (hn : cs ≠ []) (hc : ¬ "*/".toList <:+: '\n' :: tl) :
    blankLength (cs ++ '\n' :: tl) = 0 := by
  rw [blankLength_eq] at h ⊢
  repeat rw [isPrefixOf_append_cons (by decide) cs tl]
  split at h
  · rename_i hl
    rw [if_pos hl]
    split at h
    · rename_i hd
      rw [if_pos hd]
    · rename_i hd
      rw [if_neg hd, (lineCommentLength_append cs tl).1, h]
  · rename_i hl
    rw [if_neg hl]
    split at h
    · rename_i hb
      rw [if_pos hb]
      have h2 : 2 ≤ cs.length := length_of_isPrefixOf hb
      split at h
      · cases h
      · rename_i he
        rw [if_neg he]
        split at h
        · rename_i hd
          rw [if_pos hd]
        · rename_i hd
          rw [if_neg hd]
          rw [blockCommentLength_eq hb] at h
          rw [blockCommentLength_eq (by rw [isPrefixOf_append_cons (by decide) cs tl]; exact hb),
            List.drop_append_of_le_length h2]
          cases hk : blockLength 1 2 (cs.drop 2) with
          | none => rw [blockLength_append_of_none hk hc, Option.getD_none]
          | some m =>
            rw [hk, Option.getD_some] at h
            rw [(blockLength_append hk ('\n' :: tl)).1, Option.getD_some, h]
    · rename_i hb
      rw [if_neg hb]
      obtain ⟨c, cs, rfl⟩ := List.exists_cons_of_ne_nil hn
      exact h

theorem unmarked_append (cs tl : List Char) : SourceFile.unmarked (cs ++ '\n' :: tl) = SourceFile.unmarked cs ++ '\n' :: tl := by
  cases cs with
  | nil =>
    rw [List.nil_append, SourceFile.unmarked, if_neg (by decide)]
    rfl
  | cons c cs =>
    rw [List.cons_append, SourceFile.unmarked, SourceFile.unmarked]
    split <;> rfl

theorem behindInterpreter_eq (rest : List Char) : SourceFile.behindInterpreter ('#' :: '!' :: rest) =
    if (skipBlanks rest.length ⟨rest, .origin⟩).rest.head? = some '[' then '#' :: '!' :: rest
    else ('#' :: '!' :: rest).dropWhile (· ≠ '\n') := by
  rw [SourceFile.behindInterpreter]
  split
  · rename_i hr
    rw [hr, List.head?_cons, if_pos rfl]
  · rename_i hr
    rw [if_neg]
    intro hh
    obtain ⟨behind, hb⟩ := List.head?_eq_some_iff.mp hh
    exact hr behind hb

theorem behindInterpreter_of_ne (h : ∀ rest, cs ≠ '#' :: '!' :: rest) : SourceFile.behindInterpreter cs = cs := by
  unfold SourceFile.behindInterpreter
  split
  · exact absurd rfl (h _)
  · rfl

/-- The line that names an interpreter is the same in front of lines that end no comment and begin an item. -/
theorem behindInterpreter_append (hc : ¬ "*/".toList <:+: '\n' :: tl)
    (ha : ∀ p, ∃ behind p', Blanks ⟨'\n' :: tl, p⟩ ⟨'#' :: behind, p'⟩) (cs : List Char) :
    SourceFile.behindInterpreter (cs ++ '\n' :: tl) = SourceFile.behindInterpreter cs ++ '\n' :: tl := by
  by_cases hi : ∃ rest, cs = '#' :: '!' :: rest
  · obtain ⟨rest, rfl⟩ := hi
    have hline : (('#' :: '!' :: rest) ++ '\n' :: tl).dropWhile (· ≠ '\n') =
        ('#' :: '!' :: rest).dropWhile (· ≠ '\n') ++ '\n' :: tl := by
      rw [List.dropWhile_append]
      split
      · rename_i he
        rw [List.isEmpty_iff.mp he, List.nil_append, List.dropWhile_cons_of_neg (by simp)]
      · rfl
    have hblanks : Blanks ⟨rest ++ '\n' :: tl, .origin⟩ _ := (blanks_skipBlanks rest.length ⟨rest, .origin⟩).append tl
    have hblank := blankLength_skipBlanks (c := ⟨rest, .origin⟩) (Nat.le_refl rest.length)
    have hhead : (skipBlanks (rest ++ '\n' :: tl).length ⟨rest ++ '\n' :: tl, .origin⟩).rest.head? = some '[' ↔
        (skipBlanks rest.length ⟨rest, .origin⟩).rest.head? = some '[' := by
      generalize skipBlanks rest.length ⟨rest, .origin⟩ = c at hblanks hblank ⊢
      obtain ⟨r, p⟩ := c
      cases r with
      | nil =>
        obtain ⟨behind, p', hb⟩ := ha p
        have hall : Blanks ⟨rest ++ '\n' :: tl, .origin⟩ _ := hblanks.trans hb
        rw [hall.skipBlanks_eq rfl (Nat.le_refl _)]
        simp
      | cons x xs =>
        rw [hblanks.skipBlanks_eq (blankLength_append_of_none hblank (List.cons_ne_nil x xs) hc) (Nat.le_refl _)]
        rfl
    rw [List.cons_append, List.cons_append, behindInterpreter_eq, behindInterpreter_eq]
    simp only [hhead]
    split
    · rfl
    · exact hline
  · have hn (rest : List Char) : cs ++ '\n' :: tl ≠ '#' :: '!' :: rest := by
      intro he
      cases cs with
      | nil => cases he
      | cons a cs =>
        cases cs with
        | nil => cases he
        | cons b cs =>
          cases he
          exact hi ⟨cs, rfl⟩
    rw [behindInterpreter_of_ne hn, behindInterpreter_of_ne fun rest hr => hi ⟨rest, hr⟩]

theorem content_append (hc : ¬ "*/".toList <:+: '\n' :: tl)
    (ha : ∀ p, ∃ behind p', Blanks ⟨'\n' :: tl, p⟩ ⟨'#' :: behind, p'⟩) (cs : List Char) :
    SourceFile.content (cs ++ '\n' :: tl) = SourceFile.content cs ++ '\n' :: tl := by
  rw [SourceFile.content, unmarked_append, behindInterpreter_append hc ha]
  rfl

/-! ### Marks at the end -/

theorem blankLength_of_punctuation? (h : (punctuation? cs).isSome) : blankLength cs = 0 ∧ cs ≠ [] := by
  cases cs with
  | nil => cases h
  | cons c cs =>
    rw [punctuation?_cons] at h
    split at h
    · cases h
    rename_i hcomment
    split at h
    · rename_i hc
      have hs : separates c = false := by
        have hnone : "~!@#$%^&*-=+|;:,<.>/?'".toList.all (!separates ·) := by decide
        have hmem := List.all_eq_true.mp hnone c (List.contains_iff_mem.mp hc)
        rwa [Bool.not_eq_true'] at hmem
      rw [← beginsComment_cons, Bool.not_eq_true] at hcomment
      rw [blankLength_of_not_beginsComment hcomment, List.head?_cons, Option.any_some, hs]
      exact ⟨rfl, List.cons_ne_nil _ _⟩
    · cases h

theorem blankLength_of_anyNameLength (h : anyNameLength cs = some n) : blankLength cs = 0 ∧ cs ≠ [] := by
  cases cs with
  | nil => cases h
  | cons c cs => exact ⟨(plain_of_identifier (startsIdentifier_of_anyNameLength h)).blank, List.cons_ne_nil _ _⟩

/-- A mark goes on only with what is no blank. -/
theorem ahead_of_leaf? {make : Extent → Token} (h : leaf? cs = some (n, make)) {e : Extent} (hj : (make e).isJoint) :
    blankLength (cs.drop n) = 0 ∧ cs.drop n ≠ [] := by
  cases hl : literalLength cs with
  | some m =>
    rw [leaf?_of_literal hl] at h
    cases h
    cases hj
  | none =>
    cases hp : punctuation? cs with
    | some c =>
      rw [leaf?_of_punctuation? hl hp] at h
      split at h
      · split at h
        · rename_i hf
          cases h
          unfold lifetimeFollows at hf
          cases ha : anyNameLength (cs.drop 1) with
          | none =>
            rw [ha] at hf
            cases hf
          | some m => exact blankLength_of_anyNameLength ha
        · cases h
      · cases h
        exact blankLength_of_punctuation? hj
    | none =>
      cases hi : identifierLength cs with
      | some m =>
        rw [leaf?_of_identifierLength hl hp hi] at h
        split at h
        all_goals
          cases h
          cases hj
      | none =>
        rw [leaf?_of_none hl hp hi] at h
        split at h
        · cases h
          cases hj
        · cases h

/-- Of a mark that goes on with what is behind, no blank is left behind it. -/
def Scan.JoinsAhead (s : Scan) : Prop :=
  ∀ t ∈ s.done.head?, t.isJoint → blankLength s.cursor.rest = 0 ∧ s.cursor.rest ≠ []

theorem Round.joinsAhead (h : Round s s') (hs : s.JoinsAhead) : s'.JoinsAhead := by
  intro t ht hj
  cases h with
  | blank h =>
    rw [(hs t ht hj).1] at h
    cases h
  | documentation hb h hc =>
    simp only [docAttribute, List.reverse_cons, List.reverse_append, List.append_assoc, List.cons_append, List.reverse_nil,
      List.nil_append, List.head?_cons, Option.mem_some_iff] at ht
    subst ht
    cases hj
  | opening h => cases ht
  | closing h =>
    cases ht
    cases hj
  | leaf hp h =>
    cases ht
    rw [Cursor.rest_advance]
    exact ahead_of_leaf? h hj

theorem Scans.joinsAhead (h : Scans s s') (hs : s.JoinsAhead) : s'.JoinsAhead := by
  induction h with
  | refl => exact hs
  | tail _ hr ih => exact hr.joinsAhead ih

/-- The last mark of a text goes on with nothing. -/
theorem not_isJoint_of_ofChars? (h : ofChars? cs = some ts) : ∀ t ∈ ts.getLast?, t.isJoint = false := by
  obtain ⟨p, hscans⟩ := scans_of_ofChars? h
  have hstart : Scan.JoinsAhead ⟨[], [], .start cs⟩ := by
    intro t ht
    cases ht
  intro t ht
  rw [← List.head?_reverse] at ht
  rw [Bool.eq_false_iff]
  exact fun hj => (hscans.joinsAhead hstart t ht hj).2 rfl

end GeneratorHost.Token
