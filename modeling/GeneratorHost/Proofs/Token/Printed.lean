import GeneratorHost.Proofs.Token.Escapes
import GeneratorHost.Proofs.Token.Scans
import GeneratorHost.Token.Printer

/-! Tokens that are printed are read again, with the places where they stand. -/
namespace GeneratorHost.Token
open Text

mutual

/-- A token without the place that it was read at. -/
def bare : Token → Token
  | .ident raw name _ => .ident raw name default
  | .punct c joint _ => .punct c joint default
  | .literal spelling _ => .literal spelling default
  | .group delimiter content _ => .group delimiter (bareAll content) default

def bareAll : List Token → List Token
  | [] => []
  | t :: ts => t.bare :: bareAll ts

end

theorem bareAll_eq_map (ts : List Token) : bareAll ts = ts.map bare := by
  induction ts with
  | nil => rfl
  | cons t ts ih => rw [bareAll, ih, List.map_cons]

theorem bareAll_append (ts ts' : List Token) : bareAll (ts ++ ts') = bareAll ts ++ bareAll ts' := by
  simp only [bareAll_eq_map, List.map_append]

/-- A token other than a group that its own text reads as. -/
structure Readable (t : Token) : Prop where
  plain : Plain t.text.toList
  reads : ∃ make, leaf? t.text.toList = some (t.text.toList.length, make) ∧ ∀ extent, (make extent).bare = t
  calm : t.isJoint = false

/-- Whether a mark goes on with another one, whatever comes behind it. -/
def Joins (c d : Char) : Prop :=
  ∀ rest, Plain (c :: d :: rest) ∧ leaf? (c :: d :: rest) = some (1, .punct c true)

/-- Tokens that their text reads as. -/
inductive Printable : List Token → Prop
  | nil : Printable []
  | leaf {t : Token} {ts : List Token} (ht : Readable t) (hs : Printable ts) : Printable (t :: ts)
  | joint {c d : Char} {joint : Bool} {ts : List Token} (hj : Joins c d) (hs : Printable (.punct d joint default :: ts)) :
    Printable (.punct c true default :: .punct d joint default :: ts)
  | group {delimiter : Delimiter} {content ts : List Token} (hc : Printable content) (hs : Printable ts) :
    Printable (.group delimiter content default :: ts)

variable {t : Token} {ts : List Token} {rest : List Char}

/-! ### Gaps -/

/-- What stands between a token and the text behind the tokens that come after it. -/
def gap (ts : List Token) (rest : List Char) : List Char :=
  match ts with
  | [] => rest
  | t :: ts => ' ' :: ((textAll (t :: ts)).toList ++ rest)

theorem border_gap (hr : Border rest) (ts : List Token) : Border (gap ts rest) := by
  cases ts with
  | nil => exact hr
  | cons => exact border_cons rfl _

theorem scans_gap (ts : List Token) (rest : List Char) (frames : List Frame) (done : List Token) (p : Position) :
    ∃ p', Scans ⟨frames, done, ⟨gap ts rest, p⟩⟩ ⟨frames, done, ⟨(textAll ts).toList ++ rest, p'⟩⟩ := by
  cases ts with
  | nil => exact ⟨p, .refl⟩
  | cons t ts =>
    have hblank : Round ⟨frames, done, ⟨' ' :: ((textAll (t :: ts)).toList ++ rest), p⟩⟩ _ := .blank rfl
    exact ⟨p.after ' ', .single hblank⟩

theorem textAll_cons (h : t.isJoint = false) (ts : List Token) (rest : List Char) :
    (textAll (t :: ts)).toList ++ rest = t.text.toList ++ gap ts rest := by
  cases ts with
  | nil => rw [textAll, gap]
  | cons t' ts =>
    rw [textAll, gap, String.toList_append, String.toList_append, List.append_assoc, List.append_assoc]
    · rfl
    · exact List.cons_ne_nil _ _
    · rintro c extent rfl
      cases h

theorem textAll_joint (c : Char) (t : Token) (ts : List Token) (extent : Extent) (rest : List Char) :
    (textAll (.punct c true extent :: t :: ts)).toList ++ rest = c :: ((textAll (t :: ts)).toList ++ rest) := by
  rw [textAll, String.toList_append, Char.toString, String.toList_singleton]
  · rfl
  · exact List.cons_ne_nil _ _

theorem textAll_punct (c : Char) (joint : Bool) (extent : Extent) (ts : List Token) (rest : List Char) :
    ∃ behind, (textAll (.punct c joint extent :: ts)).toList ++ rest = c :: behind := by
  have hcalm (h : isJoint (.punct c joint extent) = false) :
      ∃ behind, (textAll (.punct c joint extent :: ts)).toList ++ rest = c :: behind := by
    rw [textAll_cons h, text, Char.toString, String.toList_singleton]
    exact ⟨_, rfl⟩
  cases joint with
  | false => exact hcalm rfl
  | true =>
    cases ts with
    | nil =>
      rw [textAll, text, Char.toString, String.toList_singleton]
      exact ⟨_, rfl⟩
    | cons t ts => exact ⟨_, textAll_joint c t ts extent rest⟩

theorem advance_left (front rest : List Char) (p : Position) :
    ∃ p', Cursor.advance front.length ⟨front ++ rest, p⟩ = ⟨rest, p'⟩ := by
  refine ⟨(Cursor.advance front.length ⟨front ++ rest, p⟩).place, ?_⟩
  have h := Cursor.rest_advance front.length ⟨front ++ rest, p⟩
  rw [List.drop_left] at h
  generalize Cursor.advance front.length ⟨front ++ rest, p⟩ = c at h ⊢
  obtain ⟨_, _⟩ := c
  cases h
  rfl

/-! ### Rounds -/

theorem Readable.scans (ht : Readable t) (hr : Border rest) (frames : List Frame) (done : List Token) (p : Position) :
    ∃ t' p', t'.bare = t ∧ Scans ⟨frames, done, ⟨t.text.toList ++ rest, p⟩⟩ ⟨frames, t' :: done, ⟨rest, p'⟩⟩ := by
  obtain ⟨make, hl, hm⟩ := ht.reads
  obtain ⟨p', ha⟩ := advance_left t.text.toList rest p
  have hround : Round ⟨frames, done, ⟨t.text.toList ++ rest, p⟩⟩ _ := .leaf (ht.plain.append hr hl) (leaf?_append hr hl).1
  rw [ha] at hround
  exact ⟨_, p', hm _, .single hround⟩

/-- The text in front of what is in a group. -/
def openingText : Delimiter → List Char
  | .parenthesis => ['(']
  | .bracket => ['[']
  | .brace => ['\x7b', ' ']

/-- The text behind what is in a group. -/
def closingText : Delimiter → List Token → List Char
  | .parenthesis, _ => [')']
  | .bracket, _ => [']']
  | .brace, [] => ['\x7d']
  | .brace, _ :: _ => [' ', '\x7d']

theorem text_group (delimiter : Delimiter) (content : List Token) (extent : Extent) :
    (text (.group delimiter content extent)).toList =
      openingText delimiter ++ ((textAll content).toList ++ closingText delimiter content) := by
  cases delimiter with
  | parenthesis => simp [text, openingText, closingText]
  | bracket => simp [text, openingText, closingText]
  | brace =>
    cases content with
    | nil => simp [text, textAll, openingText, closingText]
    | cons t ts => simp [text, openingText, closingText]

theorem border_closingText (delimiter : Delimiter) (content : List Token) (rest : List Char) :
    Border (closingText delimiter content ++ rest) := by
  fun_cases closingText delimiter content <;> exact border_cons (by decide) _

theorem opens_parenthesis (h : beginsComment rest = false) : opens ('(' :: rest) = some .parenthesis := by
  rw [opens, if_neg]
  rintro hm
  obtain ⟨behind, hb⟩ := List.isPrefixOf_iff_prefix.mp hm
  obtain ⟨-, rfl⟩ := List.cons.inj hb
  cases h

theorem scans_opening (delimiter : Delimiter) (h : beginsComment rest = false) (frames : List Frame) (done : List Token)
    (p : Position) : ∃ p', Scans ⟨frames, done, ⟨openingText delimiter ++ rest, p⟩⟩
      ⟨⟨delimiter, p, done⟩ :: frames, [], ⟨rest, p'⟩⟩ := by
  cases delimiter with
  | parenthesis =>
    have hround : Round ⟨frames, done, ⟨'(' :: rest, p⟩⟩ _ := .opening (opens_parenthesis h)
    exact ⟨_, .single hround⟩
  | bracket =>
    have hround : Round ⟨frames, done, ⟨'[' :: rest, p⟩⟩ _ := .opening rfl
    exact ⟨_, .single hround⟩
  | brace =>
    have hround : Round ⟨frames, done, ⟨'\x7b' :: ' ' :: rest, p⟩⟩ _ := .opening rfl
    have hblank : Round ⟨⟨.brace, p, done⟩ :: frames, [], ⟨' ' :: rest, p.after '\x7b'⟩⟩ _ := .blank rfl
    exact ⟨_, .head hround (.single hblank)⟩

theorem scans_closing (delimiter : Delimiter) (content : List Token) (start : Position) (before : List Token)
    (frames : List Frame) (done : List Token) (p : Position) (rest : List Char) : ∃ p' extent,
      Scans ⟨⟨delimiter, start, before⟩ :: frames, done, ⟨closingText delimiter content ++ rest, p⟩⟩
        ⟨frames, .group delimiter done.reverse extent :: before, ⟨rest, p'⟩⟩ := by
  have hclose {c : Char} (h : closes (c :: rest) = some delimiter) (p : Position) : ∃ p' extent,
      Scans ⟨⟨delimiter, start, before⟩ :: frames, done, ⟨c :: rest, p⟩⟩
        ⟨frames, .group delimiter done.reverse extent :: before, ⟨rest, p'⟩⟩ := by
    have hround : Round ⟨⟨delimiter, start, before⟩ :: frames, done, ⟨c :: rest, p⟩⟩ _ := .closing h
    exact ⟨_, _, .single hround⟩
  cases delimiter with
  | parenthesis => exact hclose rfl p
  | bracket => exact hclose rfl p
  | brace =>
    cases content with
    | nil => exact hclose rfl p
    | cons =>
      have hblank : Round ⟨⟨.brace, start, before⟩ :: frames, done, ⟨' ' :: '\x7d' :: rest, p⟩⟩ _ := .blank rfl
      obtain ⟨p', extent, h⟩ := hclose (c := '\x7d') rfl (p.after ' ')
      exact ⟨p', extent, .head hblank h⟩

/-- What is printed begins no comment. -/
theorem Printable.beginsComment (h : Printable ts) (hr : Border rest) :
    beginsComment ((textAll ts).toList ++ rest) = false := by
  cases h with
  | nil =>
    cases rest with
    | nil => rfl
    | cons c rest =>
      rw [textAll, String.toList_empty, List.nil_append, beginsComment_cons,
        not_of_isBorder (p := fun c => decide (c = '/')) (by decide) (hr c rfl), Bool.false_and]
  | leaf ht hs =>
    obtain ⟨make, hl, -⟩ := ht.reads
    rw [textAll_cons ht.calm]
    exact beginsComment_of_leaf? (leaf?_append (border_gap hr _) hl).1
  | @joint c d joint ts hj hs =>
    obtain ⟨behind, hb⟩ := textAll_punct d joint default ts rest
    rw [textAll_joint, hb]
    exact beginsComment_of_leaf? (hj behind).2
  | @group delimiter content ts hc hs =>
    rw [textAll_cons rfl, text_group]
    cases delimiter <;> rfl

/-- Tokens that are printed are read again. -/
theorem Printable.scans (h : Printable ts) (hr : Border rest) (frames : List Frame) (done : List Token) (p : Position) :
    ∃ ts' p', bareAll ts' = ts ∧
      Scans ⟨frames, done, ⟨(textAll ts).toList ++ rest, p⟩⟩ ⟨frames, ts'.reverse ++ done, ⟨rest, p'⟩⟩ := by
  induction h generalizing rest frames done p with
  | nil => exact ⟨[], p, rfl, .refl⟩
  | @leaf t ts ht hs ih =>
    rw [textAll_cons ht.calm]
    obtain ⟨t', p₁, hb, h₁⟩ := ht.scans (border_gap hr ts) frames done p
    obtain ⟨p₂, h₂⟩ := scans_gap ts rest frames (t' :: done) p₁
    obtain ⟨ts', p₃, hbs, h₃⟩ := ih hr frames (t' :: done) p₂
    refine ⟨t' :: ts', p₃, by rw [bareAll, hb, hbs], (h₁.trans h₂).trans ?_⟩
    rw [List.reverse_cons, List.append_assoc]
    exact h₃
  | @joint c d joint ts hj hs ih =>
    obtain ⟨behind, hb⟩ := textAll_punct d joint default ts rest
    obtain ⟨hp, hl⟩ := hj behind
    have hround : Round ⟨frames, done, ⟨c :: d :: behind, p⟩⟩ _ := .leaf hp hl
    rw [← hb] at hround
    obtain ⟨ts', p', hbs, hs⟩ := ih hr frames (.punct c true ⟨p, p.after c⟩ :: done) (p.after c)
    refine ⟨.punct c true ⟨p, p.after c⟩ :: ts', p', by rw [bareAll, hbs, bare], ?_⟩
    rw [textAll_joint, List.reverse_cons, List.append_assoc]
    exact .head hround hs
  | @group delimiter content ts hc hs ihc ihs =>
    rw [textAll_cons rfl, text_group, List.append_assoc, List.append_assoc]
    have hclosing := border_closingText delimiter content (gap ts rest)
    obtain ⟨p₁, h₁⟩ := scans_opening delimiter (hc.beginsComment hclosing) frames done p
    obtain ⟨content', p₂, hbc, h₂⟩ := ihc hclosing (⟨delimiter, p, done⟩ :: frames) [] p₁
    obtain ⟨p₃, extent, h₃⟩ := scans_closing delimiter content p done frames (content'.reverse ++ []) p₂ (gap ts rest)
    rw [List.append_nil, List.reverse_reverse] at h₃
    rw [List.append_nil] at h₂
    obtain ⟨p₄, h₄⟩ := scans_gap ts rest frames (.group delimiter content' extent :: done) p₃
    obtain ⟨ts', p₅, hbs, h₅⟩ := ihs hr frames (.group delimiter content' extent :: done) p₄
    refine ⟨.group delimiter content' extent :: ts', p₅, by rw [bareAll, bare, hbc, hbs], ?_⟩
    rw [List.reverse_cons, List.append_assoc]
    exact ((h₁.trans h₂).trans (h₃.trans h₄)).trans h₅

/-! ### What is printable -/

theorem Printable.append {ts' : List Token} (h : Printable ts) (h' : Printable ts') : Printable (ts ++ ts') := by
  induction h with
  | nil => exact h'
  | leaf ht hs ih => exact .leaf ht ih
  | joint hj hs ih => exact .joint hj ih
  | group hc hs ihc ihs => exact .group hc ihs

theorem Readable.printable (ht : Readable t) : Printable [t] := .leaf ht .nil

theorem readable_ident {name : String} (h : UnitRoot.isIdentifier name.toList) : Readable (.ident false name default) := by
  have hends : Ends [] := by rintro _ ⟨⟩
  have hl := leaf?_of_identifier h hends
  rw [List.append_nil, String.ofList_toList] at hl
  refine ⟨?_, ⟨_, hl, fun _ => rfl⟩, rfl⟩
  change Plain name.toList
  cases hn : name.toList with
  | nil =>
    rw [hn] at h
    cases h
  | cons c cs =>
    rw [hn, UnitRoot.isIdentifier, Bool.and_eq_true] at h
    exact plain_of_identifier h.1

/-- A raw name is no raw literal. -/
theorem leaf?_raw {c : Char} {cs : List Char} (h : UnitRoot.isIdentifier (c :: cs)) (hr : ¬ neverRaw (c :: cs)) :
    leaf? ('r' :: '#' :: c :: cs) = some (cs.length + 3, .ident true (String.ofList (c :: cs))) := by
  rw [UnitRoot.isIdentifier, Bool.and_eq_true] at h
  have hn : nameLength (c :: cs) = cs.length + 1 := by
    have hends : Ends [] := by rintro _ ⟨⟩
    have hl := nameLength_of_identifier h.1 h.2 hends
    rwa [List.append_nil] at hl
  have hc : c ∉ ['#', quotation] := not_mem_of_all (by decide) h.1
  rw [List.mem_cons, List.mem_singleton, not_or] at hc
  have hl : literalLength ('r' :: '#' :: c :: cs) = none := by
    rw [literalLength_r]
    simp [rawOpening, hc.1, hc.2]
  have ho : literalOpenings.any (·.isPrefixOf ('r' :: '#' :: c :: cs)) = false := by
    have hq : quotation = '\x22' := rfl
    rw [hq] at hc
    simp [literalOpenings, List.isPrefixOf, Ne.symm hc.1, Ne.symm hc.2]
  have hi : identifierLength ('r' :: '#' :: c :: cs) = some (cs.length + 3) := by
    have ht : (c :: cs).take (cs.length + 1) = c :: cs := List.take_of_length_le (Nat.le_refl _)
    rw [identifierLength, ho, if_neg Bool.false_ne_true, anyNameLength, hn, ht]
    simp [hr]
  have hp : punctuation? ('r' :: '#' :: c :: cs) = none := punctuation?_of_startsIdentifier (by decide)
  rw [leaf?_of_identifierLength hl hp hi]
  simp [List.isPrefixOf]

theorem readable_raw {name : String} (h : UnitRoot.isIdentifier name.toList) (hr : ¬ neverRaw name.toList) :
    Readable (.ident true name default) := by
  have ht : (text (.ident true name default)).toList = 'r' :: '#' :: name.toList := by simp [text]
  refine ⟨?_, ?_, rfl⟩
  · rw [ht]
    exact plain_of_ne (by decide) (by decide)
  · rw [ht]
    cases hn : name.toList with
    | nil =>
      rw [hn] at h
      cases h
    | cons c cs =>
      rw [hn] at h hr
      refine ⟨_, leaf?_raw h hr, fun _ => ?_⟩
      rw [← hn, String.ofList_toList]
      rfl

theorem readable_literal (cs : List Char) : Readable (.literal (quotedLiteral cs) default) := by
  refine ⟨?_, ⟨_, leaf?_quotedLiteral cs, fun _ => rfl⟩, rfl⟩
  rw [text, quotedLiteral, String.toList_ofList]
  exact plain_of_ne (by decide) (by decide)

/-- Marks that are no quote. -/
def unquoted : List Char := "~!@#$%^&*-=+|;:,<.>/?".toList

theorem readable_punct {c : Char} (h : c ∈ unquoted) : Readable (.punct c false default) := by
  -- `all` is decided along the list, where a bounded quantifier may be decided over all characters.
  have hall : ∀ c ∈ unquoted, decide ((blankLength [c] = 0 ∧ docComment? [c] = none ∧ opens [c] = none ∧ closes [c] = none) ∧
      literalLength [c] = none ∧ punctuation? [c] = some c ∧ c ≠ apostrophe) := List.all_eq_true.mp (by decide +kernel)
  have ht : (text (.punct c false default)).toList = [c] := by rw [text, Char.toString, String.toList_singleton]
  obtain ⟨⟨hb, hd, ho, hc⟩, hl, hp, ha⟩ := of_decide_eq_true (hall c h)
  refine ⟨?_, ⟨.punct c false, ?_, fun _ => rfl⟩, rfl⟩
  · rw [ht]
    exact ⟨List.cons_ne_nil _ _, hb, hd, ho, hc⟩
  · rw [ht, leaf?_of_punctuation? hl hp]
    exact if_neg ha

end GeneratorHost.Token
