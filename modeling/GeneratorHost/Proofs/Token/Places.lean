import GeneratorHost.Proofs.Text.Offsets
import GeneratorHost.Token.Lexer

/-! Where tokens stand: every token that a text reads as covers the characters that it is read from. -/
namespace GeneratorHost.Token

/-- The place before a character of a text. -/
def placeAt (cs : List Char) (n : Nat) : Position := Position.origin.afterAll (cs.take n)

/-- The stretch between two characters of a text. -/
def stretch (cs : List Char) (i j : Nat) : Extent := ⟨placeAt cs i, placeAt cs j⟩

mutual

/-- The characters of a text from one up to another read as a token, or as a part of the attribute that a documentation
comment stands for. -/
inductive Spelled (cs : List Char) : Nat → Nat → Token → Prop
  | leaf {i n : Nat} {make : Extent → Token} (read : leaf? (cs.drop i) = some (n, make)) :
      Spelled cs i (i + n) (make (stretch cs i (i + n)))
  | group {i j : Nat} {delimiter : Delimiter} {content : List Token} (opened : opens (cs.drop i) = some delimiter)
      (inside : Row cs (i + 1) j content) (closed : closes (cs.drop j) = some delimiter) :
      Spelled cs i (j + 1) (.group delimiter content (stretch cs i (j + 1)))
  | documentation {i n : Nat} {comment : List Char} {inner : Bool} {t : Token}
      (read : docComment? (cs.drop i) = some (n, comment, inner))
      (part : t ∈ docAttribute comment inner (stretch cs i (i + n))) : Spelled cs i (i + n) t
  | documentText {i n : Nat} {comment : List Char} {inner : Bool} {content : List Token} {t : Token}
      (read : docComment? (cs.drop i) = some (n, comment, inner))
      (group : .group .bracket content (stretch cs i (i + n)) ∈ docAttribute comment inner (stretch cs i (i + n)))
      (part : t ∈ content) : Spelled cs i (i + n) t

/-- Tokens that stand between two characters of a text, none before the one in front of it. -/
inductive Row (cs : List Char) : Nat → Nat → List Token → Prop
  | nil {a b : Nat} (le : a ≤ b) : Row cs a b []
  | cons {a b i j : Nat} {t : Token} {ts : List Token} (le : a ≤ i) (head : Spelled cs i j t) (tail : Row cs i b ts) :
      Row cs a b (t :: ts)

end

variable {cs : List Char} {a b c i j n : Nat} {t : Token} {ts us : List Token}

/-! ### Rows -/

theorem Row.le (h : Row cs a b ts) : a ≤ b := by
  induction ts generalizing a with
  | nil =>
    cases h with
    | nil le => exact le
  | cons t ts ih =>
    cases h with
    | cons le _ tail => exact Nat.le_trans le (ih tail)

theorem Spelled.le (h : Spelled cs i j t) : i ≤ j := by
  cases h with
  | group _ inside _ =>
    have := inside.le
    omega
  | _ => exact Nat.le_add_right _ _

theorem Row.append (h : Row cs a b ts) (hc : b ≤ c) {d : Nat} (h' : Row cs c d us) : Row cs a d (ts ++ us) := by
  induction ts generalizing a with
  | nil =>
    have hac := Nat.le_trans h.le hc
    cases h' with
    | nil le => exact .nil (Nat.le_trans hac le)
    | cons le head tail => exact .cons (Nat.le_trans hac le) head tail
  | cons t ts ih =>
    cases h with
    | cons le head tail => exact .cons le head (ih tail)

theorem Row.concat (h : Row cs a b ts) (hi : b ≤ i) (ht : Spelled cs i j t) : Row cs a j (ts ++ [t]) :=
  h.append hi (.cons (Nat.le_refl i) ht (.nil ht.le))

/-- Tokens from one stretch of a text. -/
theorem Row.of_spelled (hij : i ≤ j) (h : ∀ t ∈ ts, Spelled cs i j t) : Row cs i j ts := by
  induction ts with
  | nil => exact .nil hij
  | cons t ts ih =>
    rw [List.forall_mem_cons] at h
    exact .cons (Nat.le_refl i) h.1 (ih h.2)

theorem row_docAttribute {comment : List Char} {inner : Bool} (h : docComment? (cs.drop i) = some (n, comment, inner)) :
    Row cs i (i + n) (docAttribute comment inner (stretch cs i (i + n))) :=
  .of_spelled (Nat.le_add_right _ _) fun _ ht => .documentation h ht

private theorem extent_of_leaf? {make : Extent → Token} (h : leaf? cs = some (n, make)) (extent : Extent) :
    (make extent).extent = extent := by
  unfold leaf? at h
  repeat' split at h
  all_goals cases h
  all_goals rfl

private theorem extent_of_mem_docAttribute {comment : List Char} {inner : Bool} {extent : Extent}
    (h : t ∈ docAttribute comment inner extent) : t.extent = extent := by
  cases inner <;> simp only [docAttribute, Bool.false_eq_true, if_true, if_false, List.cons_append, List.nil_append,
    List.mem_cons, List.not_mem_nil, or_false] at h <;> rcases h with rfl | rfl | rfl <;> rfl

private theorem extent_of_mem_docText {comment : List Char} {inner : Bool} {extent : Extent} {content : List Token}
    (hc : .group .bracket content extent ∈ docAttribute comment inner extent) (h : t ∈ content) :
    t.extent = extent := by
  obtain rfl : content =
      [.ident false "doc" extent, .punct '=' false extent, .literal (Text.quotedLiteral comment) extent] := by
    cases inner <;> simpa [docAttribute] using hc
  simp only [List.mem_cons, List.not_mem_nil, or_false] at h
  rcases h with rfl | rfl | rfl <;> rfl

/-- Tokens have the extents of the characters that they are read from. -/
theorem Spelled.extent_eq (h : Spelled cs i j t) : t.extent = stretch cs i j := by
  cases h with
  | leaf read => exact extent_of_leaf? read _
  | group => rfl
  | documentation _ part => exact extent_of_mem_docAttribute part
  | documentText _ group part => exact extent_of_mem_docText group part

/-- Tokens begin at characters that do not end lines. -/
theorem Spelled.exists_cons (h : Spelled cs i j t) : ∃ c rest, cs.drop i = c :: rest ∧ c ≠ '\n' := by
  have hc (hn : cs.drop i ≠ []) (hl : ∀ rest, cs.drop i ≠ '\n' :: rest) :
      ∃ c rest, cs.drop i = c :: rest ∧ c ≠ '\n' := by
    obtain ⟨c, rest, hd⟩ := List.exists_cons_of_ne_nil hn
    exact ⟨c, rest, hd, fun he => hl rest (he ▸ hd)⟩
  cases h with
  | leaf read =>
    refine hc (fun hd => ?_) fun rest hd => ?_
    all_goals
      rw [hd] at read
      cases read
  | group opened =>
    refine hc (fun hd => ?_) fun rest hd => ?_
    all_goals
      rw [hd] at opened
      cases opened
  | documentation read | documentText read =>
    refine hc (fun hd => ?_) fun rest hd => ?_
    all_goals
      rw [hd] at read
      cases read

private theorem leaf?_ne_group {make : Extent → Token} (h : leaf? cs = some (n, make)) {delimiter : Delimiter}
    {content : List Token} {extent extent' : Extent} : Token.group delimiter content extent ≠ make extent' := by
  unfold leaf? at h
  intro hg
  repeat' split at h
  all_goals cases h
  all_goals cases hg

/-- The content of a group is a row as well. -/
theorem Spelled.row_content {delimiter : Delimiter} {content : List Token} {extent : Extent}
    (h : Spelled cs i j (.group delimiter content extent)) : ∃ a b, Row cs a b content := by
  generalize ht : Token.group delimiter content extent = t at h
  cases h with
  | leaf read => exact absurd ht (leaf?_ne_group read)
  | group _ inside _ =>
    cases ht
    exact ⟨_, _, inside⟩
  | documentation read part =>
    rename_i n comment inner
    subst ht
    refine ⟨i, i + n, .of_spelled (Nat.le_add_right _ _) fun t ht => .documentText read ?_ ht⟩
    cases inner <;> simp_all [docAttribute]
  | documentText read group part =>
    rename_i n comment inner content
    subst ht
    cases inner <;> simp_all [docAttribute]

/-- The first of some tokens begins, and the last of them ends, at two characters of a text. -/
structure Between (cs : List Char) (i j : Nat) (ts : List Token) : Prop where
  first : ∃ t k, ts.head? = some t ∧ Spelled cs i k t
  last : ∃ t k, ts.getLast? = some t ∧ Spelled cs k j t

theorem Between.span_eq (h : Between cs i j ts) : span ts = stretch cs i j := by
  obtain ⟨⟨first, _, hf, hfirst⟩, last, _, hl, hlast⟩ := h
  cases ts with
  | nil => cases hf
  | cons t ts =>
    cases hf
    rw [List.getLast?_eq_some_getLast (List.cons_ne_nil _ _), Option.some.injEq] at hl
    rw [span, hl, hfirst.extent_eq, hlast.extent_eq]
    rfl

/-- Tokens at the front of a row stand between the characters that they begin and end at. -/
theorem Row.exists_between (h : Row cs a b (ts ++ us)) (hn : ts ≠ []) :
    ∃ i j, a ≤ i ∧ i ≤ j ∧ Between cs i j ts := by
  induction ts generalizing a with
  | nil => exact absurd rfl hn
  | cons t ts ih =>
    cases h with
    | @cons _ _ i j _ _ le head tail =>
      cases ts with
      | nil => exact ⟨i, j, le, head.le, ⟨t, j, rfl, head⟩, t, i, rfl, head⟩
      | cons t' ts =>
        obtain ⟨i', j', hi, hij, h⟩ := ih tail (List.cons_ne_nil _ _)
        exact ⟨i, j', le, Nat.le_trans hi hij, ⟨t, j, rfl, head⟩, h.last⟩

/-! ### Reading -/

/-- The cursor before a character of a text. -/
def Cursor.before (cs : List Char) (n : Nat) : Cursor := ⟨cs.drop n, placeAt cs n⟩

theorem Cursor.advance_before (cs : List Char) (n k : Nat) : (before cs n).advance k = before cs (n + k) := by
  induction k generalizing n with
  | zero => rfl
  | succ k ih =>
    rw [← Nat.add_assoc, Nat.add_right_comm, ← ih (n + 1), before, before]
    cases hd : cs.drop n with
    | nil =>
      have hl := List.drop_eq_nil_iff.mp hd
      have hn : placeAt cs (n + 1) = placeAt cs n := by
        rw [placeAt, placeAt, List.take_of_length_le hl, List.take_of_length_le (Nat.le_succ_of_le hl)]
      rw [List.drop_of_length_le (Nat.le_succ_of_le hl), hn]
      cases k <;> rfl
    | cons x xs =>
      have hx : cs[n]? = some x := by rw [← List.head?_drop, hd, List.head?_cons]
      have hn : placeAt cs (n + 1) = (placeAt cs n).after x := by
        rw [placeAt, List.take_add_one, hx, Position.afterAll, List.foldl_append]
        rfl
      rw [hn, ← List.drop_drop, hd]
      rfl

theorem exists_skipBlanks_before (cs : List Char) (fuel n : Nat) :
    ∃ m, n ≤ m ∧ skipBlanks fuel (.before cs n) = .before cs m := by
  induction fuel generalizing n with
  | zero => exact ⟨n, Nat.le_refl n, rfl⟩
  | succ fuel ih =>
    rw [skipBlanks]
    split
    · exact ⟨n, Nat.le_refl n, rfl⟩
    · rename_i k _
      obtain ⟨m, hm, hs⟩ := ih (n + (k + 1))
      exact ⟨m, by omega, by rw [Cursor.advance_before, hs]⟩

/-- Groups that are open one inside the other, with the character that the content of the innermost begins at. -/
inductive Opened (cs : List Char) : Nat → List Frame → Prop
  | none : Opened cs 0 []
  | frame {a b i : Nat} {delimiter : Delimiter} {before : List Token} {frames : List Frame} (outer : Opened cs a frames)
      (before_row : Row cs a b before.reverse) (le : b ≤ i) (opened : opens (cs.drop i) = some delimiter) :
      Opened cs (i + 1) (⟨delimiter, placeAt cs i, before⟩ :: frames)

/-- A group that is closed is a token in the row of the group around it. -/
theorem Opened.exists_row_of_closes {frame : Frame} {frames : List Frame} {done : List Token}
    (hf : Opened cs a (frame :: frames)) (hd : Row cs a b done.reverse) (hb : b ≤ n)
    (hc : closes (cs.drop n) = some frame.delimiter) :
    ∃ c, Opened cs c frames ∧ Row cs c (n + 1)
      (.group frame.delimiter done.reverse ⟨frame.start, placeAt cs (n + 1)⟩ :: frame.before).reverse := by
  cases hf with
  | frame outer before_row le opened =>
    refine ⟨_, outer, ?_⟩
    rw [List.reverse_cons]
    refine before_row.concat le (.group opened ?_ hc)
    have := hd.append hb (.nil (Nat.le_refl n))
    rwa [List.append_nil] at this

/-- Every round adds to the row of the innermost open group. -/
theorem exists_row_of_readAll {fuel : Nat} {frames : List Frame} {done : List Token} (hf : Opened cs a frames)
    (hd : Row cs a b done.reverse) (hb : b ≤ n) (h : readAll fuel frames done (.before cs n) = some ts) :
    ∃ b, Row cs 0 b ts := by
  induction fuel generalizing frames done a b n with
  | zero => cases h
  | succ fuel ih =>
    obtain ⟨m, hm, hs⟩ := exists_skipBlanks_before cs fuel n
    rw [readAll, hs] at h
    have hbm := Nat.le_trans hb hm
    split at h
    · rename_i k comment inner hc
      split at h
      · rw [Cursor.advance_before] at h
        refine ih hf ?_ (Nat.le_refl _) h
        rw [List.reverse_append, List.reverse_reverse]
        exact hd.append hbm (row_docAttribute hc)
      · cases h
    split at h
    · split at h
      · rename_i hempty
        cases h
        cases hf with
        | none => exact ⟨b, hd⟩
        | frame => cases hempty
      · cases h
    split at h
    · rename_i delimiter hopen
      rw [Cursor.advance_before] at h
      exact ih (.frame hf hd hbm hopen) (.nil (Nat.le_refl _)) (Nat.le_refl _) h
    · rename_i delimiter hopen hclose
      cases frames with
      | nil => cases h
      | cons frame frames =>
        dsimp only at h
        split at h
        · rename_i he
          subst he
          obtain ⟨_, houter, hrow⟩ := hf.exists_row_of_closes hd hbm hclose
          rw [Cursor.advance_before] at h
          exact ih houter hrow (Nat.le_refl _) h
        · cases h
    · split at h
      · rename_i k make hl
        rw [Cursor.advance_before] at h
        refine ih hf ?_ (Nat.le_refl _) h
        rw [List.reverse_cons]
        exact hd.concat hbm (.leaf hl)
      · cases h

/-- The tokens of a text stand in it one after the other. -/
theorem exists_row_of_ofChars? (h : ofChars? cs = some ts) : ∃ b, Row cs 0 b ts := by
  have hstart : ∃ n, ofChars? cs = readAll (cs.length + 2) [] [] (.before cs n) := by
    unfold ofChars?
    cases cs with
    | nil => exact ⟨0, rfl⟩
    | cons c rest =>
      by_cases hc : c.toNat = 0xfeff
      · refine ⟨1, ?_⟩
        rw [← Nat.zero_add 1, ← Cursor.advance_before]
        simp only [hc, if_true]
        rfl
      · refine ⟨0, ?_⟩
        simp only [hc, if_false]
        rfl
  obtain ⟨n, hn⟩ := hstart
  rw [hn] at h
  exact exists_row_of_readAll .none (.nil (Nat.zero_le 0)) (Nat.zero_le n) h

end GeneratorHost.Token
