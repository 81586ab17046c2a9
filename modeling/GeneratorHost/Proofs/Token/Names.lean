import GeneratorHost.Grammar.Parse
import GeneratorHost.Proofs.Artifact.Names
import GeneratorHost.Proofs.Token.Rounds

/-! Texts that read as a single name. A text that begins with an identifier and goes on with a colon reads as
more than that. -/
namespace GeneratorHost.Token
open Text

variable {c : Char} {cs piece rest : List Char}

/-- Whether no run has a point of an interval. -/
def avoids (first last : Nat) : List Nat → Bool
  | start :: stop :: rest => (stop < first || last < start) && avoids first last rest
  | _ => true

theorem inRuns_eq_false_of_avoids {first last n : Nat} {runs : List Nat} (h : avoids first last runs)
    (hf : first ≤ n) (hl : n ≤ last) : inRuns n runs = false := by
  fun_induction inRuns n runs with
  | case1 start stop rest ih =>
    simp only [avoids, Bool.and_eq_true, Bool.or_eq_true, decide_eq_true_iff] at h
    rw [ih h.2, Bool.or_false, Bool.and_eq_false_iff, decide_eq_false_iff_not, decide_eq_false_iff_not]
    omega
  | case2 => rfl

/-- Names begin in no interval that has blanks in it, but for the letters of ASCII. -/
theorem separates_of_startsIdentifier (h : startsIdentifier c) : separates c = false := by
  obtain ⟨h0, h1, h2, h3⟩ : avoids 0 0xa0 identifierStartRanges ∧ avoids 0x1680 0x1680 identifierStartRanges ∧
      avoids 0x2000 0x205f identifierStartRanges ∧ avoids 0x3000 0x3000 identifierStartRanges := by decide +kernel
  have hn : c.toNat = 95 ∨ (65 ≤ c.toNat ∧ c.toNat ≤ 90) ∨ (97 ≤ c.toNat ∧ c.toNat ≤ 122) ∨
      inRuns c.toNat identifierStartRanges := by
    unfold startsIdentifier Char.isAlpha Char.isUpper Char.isLower at h
    simp only [Bool.or_eq_true, Bool.and_eq_true, decide_eq_true_iff, ge_iff_le, UInt32.le_iff_toNat_le] at h
    rcases h with (rfl | h | h) | h
    · exact .inl rfl
    · exact .inr (.inl h)
    · exact .inr (.inr (.inl h))
    · exact .inr (.inr (.inr h.2))
  cases hs : separates c with
  | false => rfl
  | true =>
    simp only [separates, isBlank, Bool.or_eq_true, Bool.and_eq_true, decide_eq_true_iff] at hs
    have hr : inRuns c.toNat identifierStartRanges = false := by
      obtain hb | hb | hb | hb : c.toNat ≤ 0xa0 ∨ c.toNat = 0x1680 ∨ (0x2000 ≤ c.toNat ∧ c.toNat ≤ 0x205f) ∨
          c.toNat = 0x3000 := by omega
      · exact inRuns_eq_false_of_avoids h0 (Nat.zero_le _) hb
      · exact inRuns_eq_false_of_avoids h1 (Nat.le_of_eq hb.symm) (Nat.le_of_eq hb)
      · exact inRuns_eq_false_of_avoids h2 hb.1 hb.2
      · exact inRuns_eq_false_of_avoids h3 (Nat.le_of_eq hb.symm) (Nat.le_of_eq hb)
    simp only [hr, Bool.false_eq_true, or_false] at hn
    omega

theorem not_mem_of_all {p : Char → Bool} {marks : List Char} (hm : marks.all (!p ·)) (hc : p c) : c ∉ marks := by
  intro h
  have hn := List.all_eq_true.mp hm c h
  rw [hc] at hn
  cases hn

/-- Text that ends an identifier in front of it, and that with the identifier is no literal. -/
def Ends (rest : List Char) : Prop :=
  ∀ c ∈ rest.head?, continuesIdentifier c = false ∧ c ∉ ['#', quotation, apostrophe]

theorem ends_colon (rest : List Char) : Ends (':' :: rest) := by
  rintro c ⟨⟩
  decide

/-- The first character behind identifier characters is no mark of a literal if the identifier ends. -/
theorem head?_ne_mark (hp : piece.all continuesIdentifier) (he : Ends rest) :
    ∀ c ∈ (piece ++ rest).head?, c ∉ ['#', quotation, apostrophe] := by
  cases piece with
  | nil => exact fun c hc => (he c hc).2
  | cons c piece =>
    rintro c ⟨⟩
    rw [List.all_cons, Bool.and_eq_true] at hp
    exact not_mem_of_all (by decide) hp.1

theorem rawOpening_eq_none {q : Quoted} {n : Nat} (h : ∀ c ∈ cs.head?, c ∉ ['#', quotation, apostrophe]) :
    rawOpening q n cs = none := by
  cases cs with
  | nil => rfl
  | cons c cs =>
    have hc := h c rfl
    simp only [List.mem_cons, List.not_mem_nil, or_false, not_or] at hc
    simp [rawOpening, hc.1, hc.2.1]

theorem isDigit_of_startsIdentifier (h : startsIdentifier c) : c.isDigit = false := by
  have hd : ∀ n ∈ [0x30, 0x31, 0x32, 0x33, 0x34, 0x35, 0x36, 0x37, 0x38, 0x39],
      startsIdentifier (Char.ofNat n) = false := by decide
  cases hc : c.isDigit with
  | false => rfl
  | true =>
    simp only [Char.isDigit, Bool.and_eq_true, decide_eq_true_iff, ge_iff_le, UInt32.le_iff_toNat_le] at hc
    change 48 ≤ c.toNat ∧ c.toNat ≤ 57 at hc
    have hm := hd c.toNat (by simp only [List.mem_cons, List.not_mem_nil, or_false]; omega)
    rw [Char.ofNat_toNat, h] at hm
    cases hm

theorem numberLength_eq_none (hs : startsIdentifier c) : numberLength (c :: cs) = none := by
  have hd := isDigit_of_startsIdentifier hs
  have hf : fractionDigits (c :: cs) = none := by simp [fractionDigits, hd]
  have hx : isHexDigit c → 10 ≤ hexValue c := by
    intro hx
    simp only [isHexDigit, hexValue, hd, Bool.false_or, Bool.or_eq_true, Bool.and_eq_true, decide_eq_true_iff,
      Char.le_def, UInt32.le_iff_toNat_le, Bool.false_eq_true, if_false] at hx ⊢
    change (97 ≤ c.toNat ∧ c.toNat ≤ 102) ∨ (65 ≤ c.toNat ∧ c.toNat ≤ 70) at hx
    change 10 ≤ if 97 ≤ c.toNat then c.toNat - 87 else c.toNat - 55
    split <;> omega
  have hw : wholeLength (c :: cs) = none := by
    unfold wholeLength
    split
    iterate 3
      rename_i he
      cases he
      cases hd
    rw [wholeDigits]
    simp +contextual [hd, hx]
  simp [numberLength, hf, hw]

theorem literalLength_of_identifier (hs : startsIdentifier c) (hp : piece.all continuesIdentifier) (he : Ends rest) :
    literalLength (c :: (piece ++ rest)) = none := by
  have hq : c ≠ quotation := by
    rintro rfl
    exact absurd hs (by decide)
  have ha : c ≠ apostrophe := by
    rintro rfl
    exact absurd hs (by decide)
  have hm := head?_ne_mark hp he
  have hr (t : List Char) (ht : piece ++ rest = 'r' :: t) : ∀ c ∈ t.head?, c ∉ ['#', quotation, apostrophe] := by
    cases piece with
    | nil =>
      rw [List.nil_append] at ht
      subst ht
      exact absurd (he 'r' rfl).1 (by decide)
    | cons second piece =>
      cases ht
      rw [List.all_cons, Bool.and_eq_true] at hp
      exact head?_ne_mark hp.2 he
  generalize piece ++ rest = t at hm hr
  have htext : textLength (c :: t) = none := by
    unfold textLength
    split
    · rename_i he
      cases he
      exact absurd rfl hq
    · rename_i he
      cases he
      exact rawOpening_eq_none hm
    · rfl
  have hbytes : byteTextLength (c :: t) = none ∧ cTextLength (c :: t) = none := by
    unfold byteTextLength cTextLength
    constructor
    all_goals
      split
      · rename_i he
        cases he
        exact absurd (hm _ rfl) (by decide)
      · rename_i he
        cases he
        exact rawOpening_eq_none (hr _ rfl)
      · rfl
  have hbyte : byteLength (c :: t) = none := by
    unfold byteLength
    split
    · rename_i he
      cases he
      rw [if_neg]
      rintro rfl
      exact absurd (hm _ rfl) (by decide)
    · rfl
  have hchar : characterLength (c :: t) = none := if_neg ha
  rw [literalLength, htext, hbytes.1, hbytes.2, hbyte, hchar, numberLength_eq_none hs]
  rfl

theorem not_isPrefixOf_of_mark {opening : List Char} (hp : piece.all continuesIdentifier)
    (ho : ∃ mark ∈ (opening.dropWhile continuesIdentifier).head?, mark ∈ ['#', quotation, apostrophe]) (he : Ends rest) :
    opening.isPrefixOf (piece ++ rest) = false := by
  rw [Bool.eq_false_iff, ne_eq, List.isPrefixOf_iff_prefix]
  rintro ⟨behind, hbehind⟩
  have hd := congrArg (List.dropWhile continuesIdentifier) hbehind
  have hrest : rest.dropWhile continuesIdentifier = rest := by
    cases rest with
    | nil => rfl
    | cons c rest => rw [List.dropWhile_cons_of_neg (by simp [(he c rfl).1])]
  rw [List.dropWhile_append_of_pos (List.all_eq_true.mp hp), hrest, List.dropWhile_append] at hd
  obtain ⟨mark, hh, hm⟩ := ho
  obtain ⟨tail, ht⟩ := List.head?_eq_some_iff.mp hh
  rw [ht] at hd
  exact (he mark (by rw [← hd]; rfl)).2 hm

theorem punctuation?_of_startsIdentifier (hs : startsIdentifier c) : punctuation? (c :: cs) = none := by
  have hn : "~!@#$%^&*-=+|;:,<.>/?'".toList.contains c = false := by
    rw [Bool.eq_false_iff, ne_eq, List.contains_iff_mem]
    exact not_mem_of_all (by decide) hs
  unfold punctuation?
  split
  · rfl
  · rfl
  · rename_i he
    cases he
    rw [hn]
    rfl
  · rfl

theorem nameLength_of_identifier (hs : startsIdentifier c) (hc : piece.all continuesIdentifier) (he : Ends rest) :
    nameLength (c :: (piece ++ rest)) = piece.length + 1 := by
  have hrest : rest.takeWhile continuesIdentifier = [] := by
    cases rest with
    | nil => rfl
    | cons c rest => rw [List.takeWhile_cons_of_neg (by simp [(he c rfl).1])]
  rw [nameLength, if_pos hs, List.takeWhile_append_of_pos (List.all_eq_true.mp hc), hrest, List.append_nil, Nat.add_comm]

/-- No opening of a literal and no raw name is in front of an identifier that ends. -/
theorem identifierLength_of_identifier (hs : startsIdentifier c) (hc : piece.all continuesIdentifier) (he : Ends rest) :
    "r#".toList.isPrefixOf (c :: (piece ++ rest)) = false ∧
      identifierLength (c :: (piece ++ rest)) = some (piece.length + 1) := by
  have hall : (c :: piece).all continuesIdentifier := by
    rw [List.all_cons, hc, continuesIdentifier, hs]
    rfl
  have hraw : "r#".toList.isPrefixOf (c :: (piece ++ rest)) = false :=
    not_isPrefixOf_of_mark hall ⟨'#', by decide⟩ he
  have ho : literalOpenings.any (·.isPrefixOf (c :: (piece ++ rest))) = false := by
    rw [List.any_eq_false]
    intro opening hm
    rw [Bool.not_eq_true]
    refine not_isPrefixOf_of_mark hall ?_ he
    have hmarks : ∀ opening ∈ literalOpenings, (opening.dropWhile continuesIdentifier).head?.any
        fun mark => ['#', quotation, apostrophe].contains mark := by decide
    obtain ⟨mark, hh, hm⟩ := (Option.any_eq_true _ _).mp (hmarks opening hm)
    exact ⟨mark, hh, List.contains_iff_mem.mp hm⟩
  refine ⟨hraw, ?_⟩
  unfold identifierLength anyNameLength
  rw [ho, if_neg Bool.false_ne_true]
  split
  · rename_i heq
    rw [heq] at hraw
    simp at hraw
  · rw [nameLength_of_identifier hs hc he]
    rfl

theorem leaf?_of_identifier (hp : UnitRoot.isIdentifier piece) (he : Ends rest) :
    leaf? (piece ++ rest) = some (piece.length, .ident false (String.ofList piece)) := by
  cases piece with
  | nil => cases hp
  | cons c piece =>
    rw [UnitRoot.isIdentifier, Bool.and_eq_true] at hp
    obtain ⟨hs, hc⟩ := hp
    obtain ⟨hraw, hid⟩ := identifierLength_of_identifier hs hc he
    rw [List.cons_append, leaf?, literalLength_of_identifier hs hc he, punctuation?_of_startsIdentifier hs, hid]
    simp only [hraw]
    simp

theorem leaf?_colon (rest : List Char) : ∃ make, leaf? (':' :: rest) = some (1, make) := by
  have hl : literalLength (':' :: rest) = none := rfl
  have hp : punctuation? (':' :: rest) = some ':' := rfl
  rw [leaf?, hl, hp]
  exact ⟨_, rfl⟩

theorem plain_of_identifier (hs : startsIdentifier c) : Plain (c :: cs) :=
  plain_of_ne (separates_of_startsIdentifier hs) (not_mem_of_all (by decide) hs)

theorem ofChars?_of_identifier (hs : startsIdentifier c) :
    ofChars? (c :: cs) = readAll (cs.length + 3) [] [] ⟨c :: cs, .origin⟩ := by
  have hm : c.toNat ≠ 0xfeff := by
    intro hm
    rw [← Char.ofNat_toNat c, hm] at hs
    exact absurd hs (by decide +kernel)
  simp only [ofChars?, hm, if_false, List.length_cons]

/-- The colon is a token of its own. -/
theorem two_le_length_of_ofChars? {ts : List Token} (hp : UnitRoot.isIdentifier piece)
    (h : ofChars? (piece ++ ':' :: rest) = some ts) :
    2 ≤ ts.length := by
  obtain ⟨make, hcolon⟩ := leaf?_colon rest
  have hleaf := leaf?_of_identifier hp (ends_colon rest)
  cases piece with
  | nil => cases hp
  | cons c piece =>
    rw [UnitRoot.isIdentifier, Bool.and_eq_true] at hp
    rw [List.cons_append, ofChars?_of_identifier hp.1, readAll_leaf (plain_of_identifier hp.1) hleaf] at h
    generalize hn : Cursor.advance (c :: piece).length ⟨c :: (piece ++ ':' :: rest), .origin⟩ = next at h
    have hrest : next.rest = ':' :: rest := by
      rw [← hn, Cursor.rest_advance]
      exact List.drop_left
    have hbehind : Plain next.rest := hrest ▸ plain_of_ne (by decide) (by decide)
    rw [readAll_leaf hbehind (hrest ▸ hcolon)] at h
    exact length_le_of_readAll h

end GeneratorHost.Token

namespace GeneratorHost

/-- A name that begins with an identifier does not go on with a colon. -/
theorem not_isNameText_of_identifier {text : String} {piece rest : List Char} (hp : UnitRoot.isIdentifier piece)
    (h : text.toList = piece ++ ':' :: rest) : ¬ isNameText text := by
  unfold isNameText Token.ofText?
  rw [h]
  split
  · rename_i ht
    exact absurd (Token.two_le_length_of_ofChars? hp ht) (by simp)
  · exact Bool.false_ne_true

end GeneratorHost
