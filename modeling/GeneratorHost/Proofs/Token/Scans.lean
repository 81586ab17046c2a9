import GeneratorHost.Proofs.Token.Comments
import GeneratorHost.Proofs.Token.Names
import Mathlib.Logic.Relation

/-! Scans: the rounds that tokens are read in, one after the other. A scan needs no fuel, since every round reads at
least one character. -/
namespace GeneratorHost.Token
open Text

/-- What was read of a text: groups that are open, the tokens of the innermost, latest first, and what is left. -/
structure Scan where
  frames : List Frame
  done : List Token
  cursor : Cursor

/-- A blank is passed over, or a round reads a token. -/
inductive Round : Scan → Scan → Prop
  | blank {frames : List Frame} {done : List Token} {c : Cursor} {n : Nat} (h : blankLength c.rest = n + 1) :
    Round ⟨frames, done, c⟩ ⟨frames, done, c.advance (n + 1)⟩
  | documentation {frames : List Frame} {done : List Token} {c : Cursor} {n : Nat} {comment : List Char} {inner : Bool}
      (hb : blankLength c.rest = 0) (h : docComment? c.rest = some (n, comment, inner))
      (hc : carriagesEndLines comment) : Round ⟨frames, done, c⟩
        ⟨frames, (docAttribute comment inner ⟨c.place, (c.advance n).place⟩).reverse ++ done, c.advance n⟩
  | opening {frames : List Frame} {done : List Token} {c : Cursor} {delimiter : Delimiter}
      (h : opens c.rest = some delimiter) :
    Round ⟨frames, done, c⟩ ⟨⟨delimiter, c.place, done⟩ :: frames, [], c.advance 1⟩
  | closing {frame : Frame} {frames : List Frame} {done : List Token} {c : Cursor}
      (h : closes c.rest = some frame.delimiter) : Round ⟨frame :: frames, done, c⟩
        ⟨frames, .group frame.delimiter done.reverse ⟨frame.start, (c.advance 1).place⟩ :: frame.before, c.advance 1⟩
  | leaf {frames : List Frame} {done : List Token} {c : Cursor} {n : Nat} {make : Extent → Token}
      (hp : Plain c.rest) (h : leaf? c.rest = some (n, make)) : Round ⟨frames, done, c⟩
        ⟨frames, make ⟨c.place, (c.advance n).place⟩ :: done, c.advance n⟩

/-- Rounds one after the other. -/
abbrev Scans : Scan → Scan → Prop := Relation.ReflTransGen Round

variable {fuel n : Nat} {frames : List Frame} {done : List Token} {c : Cursor} {cs : List Char}

/-! ### Blanks -/

theorem length_advance (n : Nat) (c : Cursor) : (c.advance n).rest.length = c.rest.length - n := by
  rw [Cursor.rest_advance, List.length_drop]

theorem ne_nil_of_blankLength (h : blankLength cs = n + 1) : cs ≠ [] := by
  rintro rfl
  cases h

/-- More fuel passes over no more. -/
theorem skipBlanks_succ (h : c.rest.length ≤ fuel) : skipBlanks (fuel + 1) c = skipBlanks fuel c := by
  induction fuel generalizing c with
  | zero =>
    rw [Nat.le_zero, List.length_eq_zero_iff] at h
    rw [skipBlanks_of_blankLength_eq_zero (by rw [h]; rfl), skipBlanks]
  | succ fuel ih =>
    rw [skipBlanks, skipBlanks]
    split
    · rfl
    · refine ih ?_
      rw [length_advance]
      omega

/-! ### Delimiters -/

theorem head_of_opens {delimiter : Delimiter} (h : opens cs = some delimiter) :
    ∃ c behind, cs = c :: behind ∧ c ∈ ['(', '[', '\x7b'] := by
  unfold opens at h
  split at h
  · exact ⟨_, _, rfl, by decide⟩
  · exact ⟨_, _, rfl, by decide⟩
  · exact ⟨_, _, rfl, by decide⟩
  · cases h

theorem head_of_closes {delimiter : Delimiter} (h : closes cs = some delimiter) :
    ∃ c behind, cs = c :: behind ∧ c ∈ [')', ']', '\x7d'] := by
  unfold closes at h
  split at h
  · exact ⟨_, _, rfl, by decide⟩
  · exact ⟨_, _, rfl, by decide⟩
  · exact ⟨_, _, rfl, by decide⟩
  · cases h

theorem blankLength_of_opens {delimiter : Delimiter} (h : opens cs = some delimiter) :
    cs ≠ [] ∧ blankLength cs = 0 ∧ docComment? cs = none := by
  obtain ⟨c, behind, rfl, hc⟩ := head_of_opens h
  simp only [List.mem_cons, List.not_mem_nil, or_false] at hc
  rcases hc with rfl | rfl | rfl
  all_goals exact ⟨List.cons_ne_nil _ _, rfl, rfl⟩

theorem blankLength_of_closes {delimiter : Delimiter} (h : closes cs = some delimiter) :
    cs ≠ [] ∧ blankLength cs = 0 ∧ docComment? cs = none ∧ opens cs = none := by
  obtain ⟨c, behind, rfl, hc⟩ := head_of_closes h
  simp only [List.mem_cons, List.not_mem_nil, or_false] at hc
  rcases hc with rfl | rfl | rfl
  all_goals exact ⟨List.cons_ne_nil _ _, rfl, rfl, rfl⟩

/-! ### Fuel -/

theorem leaf?_bounds {make : Extent → Token} (h : leaf? cs = some (n, make)) : 0 < n ∧ n ≤ cs.length :=
  (leaf?_append border_nil h).2

theorem readAll_blank (h : blankLength c.rest = n + 1) (hf : c.rest.length < fuel) :
    readAll fuel frames done c = readAll fuel frames done (c.advance (n + 1)) := by
  have hpos := List.length_pos_iff.mpr (ne_nil_of_blankLength h)
  obtain ⟨fuel, rfl⟩ : ∃ k, fuel = k + 1 + 1 := ⟨fuel - 2, by omega⟩
  have hs : skipBlanks (fuel + 1) c = skipBlanks (fuel + 1) (c.advance (n + 1)) := by
    conv_lhs => rw [skipBlanks, h]
    dsimp only
    rw [skipBlanks_succ]
    rw [length_advance]
    omega
  rw [readAll, readAll, hs]

/-- What a scan reads is read. -/
theorem readAll_of_scans {s : Scan} {p : Position} (h : Scans s ⟨[], done, ⟨[], p⟩⟩) (hf : s.cursor.rest.length < fuel) :
    readAll fuel s.frames s.done s.cursor = some done.reverse := by
  have hgo {fuel n length : Nat} (hf : length < fuel + 1) (hn : 0 < n) (hle : n ≤ length) : length - n < fuel := by omega
  induction h using Relation.ReflTransGen.head_induction_on generalizing fuel with
  | refl =>
    cases fuel with
    | zero => cases hf
    | succ fuel =>
      rw [readAll, skipBlanks_of_blankLength_eq_zero rfl]
      rfl
  | head hr _ ih =>
    cases hr with
    | blank h =>
      rw [readAll_blank h hf]
      refine ih ?_
      rw [length_advance]
      exact Nat.lt_of_le_of_lt (Nat.sub_le _ _) hf
    | documentation hb h hc =>
      obtain ⟨-, hn, hle⟩ := docComment?_append h hc []
      cases fuel with
      | zero => cases hf
      | succ fuel =>
        rw [readAll, skipBlanks_of_blankLength_eq_zero hb, h]
        simp only [hc, if_true]
        refine ih ?_
        rw [length_advance]
        exact hgo hf hn hle
    | opening h =>
      obtain ⟨hne, hb, hd⟩ := blankLength_of_opens h
      cases fuel with
      | zero => cases hf
      | succ fuel =>
        rw [readAll, skipBlanks_of_blankLength_eq_zero hb, hd]
        simp only [List.isEmpty_iff, hne, if_false, h]
        refine ih ?_
        rw [length_advance]
        exact hgo hf Nat.one_pos (List.length_pos_iff.mpr hne)
    | closing h =>
      obtain ⟨hne, hb, hd, ho⟩ := blankLength_of_closes h
      cases fuel with
      | zero => cases hf
      | succ fuel =>
        rw [readAll, skipBlanks_of_blankLength_eq_zero hb, hd]
        simp only [List.isEmpty_iff, hne, if_false, ho, h, if_true]
        refine ih ?_
        rw [length_advance]
        exact hgo hf Nat.one_pos (List.length_pos_iff.mpr hne)
    | leaf hp h =>
      cases fuel with
      | zero => cases hf
      | succ fuel =>
        rw [readAll_leaf hp h]
        refine ih ?_
        rw [length_advance]
        exact hgo hf (leaf?_bounds h).1 (leaf?_bounds h).2

/-! ### In front of a border -/

theorem beginsComment_of_leaf? {make : Extent → Token} (h : leaf? cs = some (n, make)) : beginsComment cs = false := by
  have hn (d : Char) (hd : d = '/' ∨ d = '*') (behind : List Char) : leaf? ('/' :: d :: behind) = none := by
    have hl : literalLength ('/' :: d :: behind) = none := by
      rw [literalLength_of_ne (by decide)]
      rfl
    rcases hd with rfl | rfl
    all_goals exact leaf?_of_none hl rfl rfl
  rw [beginsComment, Bool.or_eq_false_iff, Bool.eq_false_iff, Bool.eq_false_iff, ne_eq, ne_eq, List.isPrefixOf_iff_prefix,
    List.isPrefixOf_iff_prefix]
  constructor
  · rintro ⟨behind, rfl⟩
    cases (hn '/' (.inl rfl) behind).symm.trans h
  · rintro ⟨behind, rfl⟩
    cases (hn '*' (.inr rfl) behind).symm.trans h

theorem opens_append_of_none (h : opens cs = none) (hn : cs ≠ []) (rest : List Char) : opens (cs ++ rest) = none := by
  rw [Option.eq_none_iff_forall_ne_some]
  intro delimiter ho
  obtain ⟨c, behind, heq, hc⟩ := head_of_opens ho
  cases cs with
  | nil => exact hn rfl
  | cons d cs =>
    obtain ⟨rfl, rfl⟩ := List.cons.inj heq
    simp only [List.mem_cons, List.not_mem_nil, or_false] at hc
    rcases hc with rfl | rfl | rfl
    · have hm : errorMark.isPrefixOf ('(' :: cs) := by
        by_contra hm
        rw [opens, if_neg hm] at h
        cases h
      rw [List.isPrefixOf_iff_prefix] at hm
      have hma : errorMark.isPrefixOf ('(' :: cs ++ rest) :=
        List.isPrefixOf_iff_prefix.mpr (hm.trans (List.prefix_append _ _))
      rw [List.cons_append] at hma ho
      rw [opens, if_pos hma] at ho
      cases ho
    · cases h
    · cases h

theorem closes_append_of_none (h : closes cs = none) (hn : cs ≠ []) (rest : List Char) : closes (cs ++ rest) = none := by
  rw [Option.eq_none_iff_forall_ne_some]
  intro delimiter ho
  obtain ⟨c, behind, heq, hc⟩ := head_of_closes ho
  cases cs with
  | nil => exact hn rfl
  | cons d cs =>
    obtain ⟨rfl, rfl⟩ := List.cons.inj heq
    simp only [List.mem_cons, List.not_mem_nil, or_false] at hc
    rcases hc with rfl | rfl | rfl
    all_goals cases h

/-- What a token begins, a token begins in front of a border. -/
theorem Plain.append {rest : List Char} (hr : Border rest) (hp : Plain cs) {make : Extent → Token}
    (h : leaf? cs = some (n, make)) : Plain (cs ++ rest) := by
  have hc := beginsComment_of_leaf? (leaf?_append hr h).1
  have hb := hp.blank
  rw [blankLength_of_not_beginsComment (beginsComment_of_leaf? h)] at hb
  constructor
  · exact List.append_ne_nil_of_left_ne_nil hp.ne_nil _
  · rw [blankLength_of_not_beginsComment hc, List.head?_append_of_ne_nil _ hp.ne_nil]
    exact hb
  · exact docComment?_of_not_beginsComment hc
  · exact opens_append_of_none hp.opening hp.ne_nil rest
  · exact closes_append_of_none hp.closing hp.ne_nil rest

/-! ### Texts -/

/-- The place where the tokens of a text begin. -/
def Cursor.start : List Char → Cursor
  | [] => ⟨[], .origin⟩
  | c :: cs => if c.toNat = 0xfeff then ⟨cs, Position.origin.after c⟩ else ⟨c :: cs, .origin⟩

theorem ofChars?_eq (cs : List Char) : ofChars? cs = readAll (cs.length + 2) [] [] (.start cs) := by
  cases cs with
  | nil => rfl
  | cons c cs =>
    simp only [ofChars?, Cursor.start]
    split <;> rfl

end GeneratorHost.Token
