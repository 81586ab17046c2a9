import GeneratorHost.Token.Lexer
import GeneratorHost.Unit.Root

/-! Names among the tokens of a text are identifiers, and no raw one is a word that cannot be raw. -/
namespace GeneratorHost

/-- All names in a token tree are identifiers, raw only where that is possible. -/
inductive Token.Proper : Token → Prop
  | ident {raw : Bool} {name : String} {extent : Extent} (identifier : UnitRoot.isIdentifier name.toList)
      (rawable : raw → ¬ neverRaw name.toList) : Proper (.ident raw name extent)
  | punct {char : Char} {joint : Bool} {extent : Extent} : Proper (.punct char joint extent)
  | literal {spelling : String} {extent : Extent} : Proper (.literal spelling extent)
  | group {delimiter : Delimiter} {content : List Token} {extent : Extent}
      (content_proper : ∀ t ∈ content, Proper t) : Proper (.group delimiter content extent)

namespace Token
open Text

private theorem take_nameLength_isIdentifier {cs : List Char} (h : nameLength cs ≠ 0) :
    UnitRoot.isIdentifier (cs.take (nameLength cs)) := by
  cases cs with
  | nil => exact absurd rfl h
  | cons c cs =>
    by_cases hc : startsIdentifier c
    · have hn : nameLength (c :: cs) = (cs.takeWhile continuesIdentifier).length + 1 := by
        rw [nameLength, if_pos hc, Nat.add_comm]
      rw [hn, List.take_succ_cons, ← List.prefix_iff_eq_take.mp (List.takeWhile_prefix _)]
      simp [UnitRoot.isIdentifier, hc]
    · rw [nameLength, if_neg hc] at h
      exact absurd rfl h

/-- The characters of a name at the front of a text: behind the marks if it is raw. -/
private theorem identifierLength_eq_some {cs : List Char} {n : Nat} (h : identifierLength cs = some n) :
    (∃ rest, cs = 'r' :: '#' :: rest ∧ UnitRoot.isIdentifier ((cs.take n).drop 2) ∧
      ¬ neverRaw ((cs.take n).drop 2)) ∨
    (¬ "r#".toList.isPrefixOf cs ∧ UnitRoot.isIdentifier (cs.take n)) := by
  unfold identifierLength at h
  split at h
  · cases h
  unfold anyNameLength at h
  split at h
  · rename_i rest _
    dsimp only at h
    split at h
    · cases h
    rename_i hn
    cases h
    simp only [Bool.or_eq_true, decide_eq_true_eq, not_or] at hn
    refine .inl ⟨rest, rfl, ?_⟩
    simpa using And.intro (take_nameLength_isIdentifier hn.1) hn.2
  · rename_i hcs
    split at h
    · cases h
    rename_i hn
    cases h
    refine .inr ⟨?_, take_nameLength_isIdentifier hn⟩
    intro hp
    obtain ⟨rest, rfl⟩ := List.isPrefixOf_iff_prefix.mp hp
    exact hcs rest rfl

theorem leaf?_proper {cs : List Char} {n : Nat} {make : Extent → Token} (h : leaf? cs = some (n, make))
    (extent : Extent) : (make extent).Proper := by
  unfold leaf? at h
  split at h
  · cases h
    exact .literal
  split at h
  · split at h
    · split at h
      · cases h
        exact .punct
      · cases h
    · cases h
      exact .punct
  split at h
  · rename_i n' hn
    obtain ⟨rest, rfl, hi, hr⟩ | ⟨hp, hi⟩ := identifierLength_eq_some hn
    · rw [if_pos (by simp)] at h
      cases h
      exact .ident (by simpa using hi) (by simpa using hr)
    · rw [if_neg hp] at h
      cases h
      exact .ident (by simpa using hi) (by simp)
  split at h
  · cases h
    exact .literal
  · cases h

private theorem docAttribute_proper {comment : List Char} {inner : Bool} {extent : Extent} :
    ∀ t ∈ docAttribute comment inner extent, t.Proper := by
  intro t ht
  have hc : ∀ t ∈ [Token.ident false "doc" extent, .punct '=' false extent,
      .literal (quotedLiteral comment) extent], t.Proper := by
    simp only [List.forall_mem_cons]
    exact ⟨.ident (by decide) (by simp), .punct, .literal, by simp⟩
  cases inner <;> simp only [docAttribute, Bool.false_eq_true, if_true, if_false, List.nil_append,
    List.cons_append, List.mem_cons, List.not_mem_nil, or_false] at ht
  · obtain rfl | rfl := ht
    · exact .punct
    · exact .group hc
  · obtain rfl | rfl | rfl := ht
    · exact .punct
    · exact .punct
    · exact .group hc

/-- What is read stays proper with the tokens before every open group. -/
private theorem readAll_proper {fuel : Nat} {frames : List Frame} {done : List Token} {cursor : Cursor}
    {ts : List Token} (hf : ∀ f ∈ frames, ∀ t ∈ f.before, t.Proper) (hd : ∀ t ∈ done, t.Proper)
    (h : readAll fuel frames done cursor = some ts) : ∀ t ∈ ts, t.Proper := by
  induction fuel generalizing frames done cursor with
  | zero => cases h
  | succ fuel ih =>
    rw [readAll] at h
    split at h
    · split at h
      · refine ih hf ?_ h
        intro t ht
        rw [List.mem_append, List.mem_reverse] at ht
        exact ht.elim (docAttribute_proper t) (hd t)
      · cases h
    split at h
    · split at h
      · cases h
        simpa using hd
      · cases h
    split at h
    · refine ih ?_ (by simp) h
      simpa using ⟨hd, hf⟩
    · split at h
      · rename_i frame outer
        split at h
        · refine ih (fun f hm => hf f (List.mem_cons_of_mem _ hm)) ?_ h
          simp only [List.forall_mem_cons]
          exact ⟨.group (by simpa using hd), hf frame List.mem_cons_self⟩
        · cases h
      · cases h
    · split at h
      · rename_i hl
        refine ih hf ?_ h
        simp only [List.forall_mem_cons]
        exact ⟨leaf?_proper hl _, hd⟩
      · cases h

/-- Reading a text makes proper tokens only. -/
theorem ofChars?_proper {cs : List Char} {ts : List Token} (h : ofChars? cs = some ts) :
    ∀ t ∈ ts, t.Proper :=
  readAll_proper (by simp) (by simp) h

end Token
end GeneratorHost
