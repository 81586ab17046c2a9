import GeneratorHost.Proofs.Grammar.Runs
import GeneratorHost.Proofs.Token.Printed

/-! What readers read where the tokens ahead are known, but not the places that they stand at. -/
namespace GeneratorHost.Reader
open Token

variable {α β σ : Type} {p q : Reader α} {P : α → Prop} {Q : β → Prop} {ts mid rest : List Token} {b : Bool} {t : Token}

/-! ### Tests -/

/-- A test that does not see the places of tokens. -/
class Unplaced (test : List Token → Bool) : Prop where
  eq : ∀ ts, test (bareAll ts) = test ts

instance : Unplaced isLifetime where
  eq ts := by
    cases ts with
    | nil => rfl
    | cons t ts =>
      cases t with
      | punct c joint extent =>
        cases joint with
        | false => rfl
        | true =>
          cases ts with
          | nil => rfl
          | cons t ts => cases t <;> rfl
      | _ => rfl

theorem skip_bareAll (ts : List Token) : skip (bareAll ts) = bareAll (skip ts) := by
  cases ts with
  | nil => rfl
  | cons t ts =>
    cases t with
    | punct c joint extent =>
      have hl : isLifetime (.punct c joint default :: bareAll ts) = isLifetime (.punct c joint extent :: ts) :=
        Unplaced.eq (.punct c joint extent :: ts)
      rw [bareAll, bare, skip, skip, hl]
      split
      · cases ts <;> rfl
      · rfl
    | _ => rfl

section
variable (test test' : List Token → Bool)

instance [h : Unplaced test] [h' : Unplaced test'] : Unplaced fun ts => test ts || test' ts where
  eq ts := by rw [h.eq, h'.eq]

instance [h : Unplaced test] [h' : Unplaced test'] : Unplaced fun ts => test ts && test' ts where
  eq ts := by rw [h.eq, h'.eq]

instance [h : Unplaced test] : Unplaced fun ts => !test ts where
  eq ts := by rw [h.eq]

instance [h : Unplaced test] : Unplaced fun ts => test (skip ts) where
  eq ts := by rw [skip_bareAll, h.eq]

instance [h : Unplaced test] : Unplaced fun ts => test (skip (skip ts)) where
  eq ts := by rw [skip_bareAll, skip_bareAll, h.eq]

end

instance (b : Bool) : Unplaced fun _ => b where
  eq _ := rfl

theorem marks_bareAll (cs : List Char) (ts : List Token) : marks cs (bareAll ts) = marks cs ts := by
  induction cs generalizing ts with
  | nil =>
    cases ts with
    | nil => rfl
    | cons t ts => cases t <;> rfl
  | cons c cs ih =>
    cases ts with
    | nil => cases cs <;> rfl
    | cons t ts =>
      cases t with
      | punct d joint extent =>
        cases cs with
        | nil => rfl
        | cons c' cs =>
          cases joint with
          | false => rfl
          | true => exact congrArg (decide (c = d) && ·) (ih ts)
      | _ => cases cs <;> rfl

instance (mark : String) : Unplaced (isMark mark) where
  eq := marks_bareAll _

/-- A test that looks at one token. -/
theorem Unplaced.of_first {test : List Token → Bool} (h : ∀ t ts ts', test (t.bare :: ts') = test (t :: ts)) : Unplaced test where
  eq ts := by
    cases ts with
    | nil => rfl
    | cons t ts => exact h t ts (bareAll ts)

instance (word : String) : Unplaced (isWord word) :=
  .of_first fun t ts ts' => by
    cases t with
    | ident raw name extent => cases raw <;> rfl
    | _ => rfl

instance : Unplaced isName := .of_first fun t ts ts' => by cases t <;> rfl

instance : Unplaced isRaw := .of_first fun t ts ts' => by cases t <;> rfl

instance (delimiter : Delimiter) : Unplaced (isGroup delimiter) := .of_first fun t ts ts' => by cases t <;> rfl

instance : Unplaced isTextLiteral := .of_first fun t ts ts' => by cases t <;> rfl

instance : Unplaced isNumber := .of_first fun t ts ts' => by cases t <;> rfl

instance : Unplaced isLiteral where
  eq ts := by
    cases ts with
    | nil => rfl
    | cons t ts =>
      cases t with
      | punct c joint extent =>
        by_cases hc : c = '-'
        · subst hc
          exact (inferInstance : Unplaced isNumber).eq ts
        · simp [bareAll, bare, isLiteral, hc, isWord]
      | ident raw name extent => cases raw <;> rfl
      | _ => rfl

instance : Unplaced List.isEmpty where
  eq ts := by cases ts <;> rfl

/-! ### Readers -/

/-- A reader reads tokens up to some others, with an answer of some kind, and finds no declarations. -/
def Reads (p : Reader α) (ts : List Token) (P : α → Prop) (rest : List Token) : Prop :=
  ∀ s : ReaderState, bareAll s.rest = ts → ∃ a s', p s = some (a, s') ∧ P a ∧ bareAll s'.rest = rest ∧ s'.found = s.found

/-- A reader cannot read what is ahead. -/
def Fails (p : Reader α) (ts : List Token) : Prop := ∀ s : ReaderState, bareAll s.rest = ts → p s = none

theorem Reads.pure {a : α} (h : P a) : Reads (pure a) ts P ts := fun s hs => ⟨a, s, rfl, h, hs, rfl⟩

theorem Reads.bind {k : α → Reader β} (hp : Reads p ts P mid) (hk : ∀ a, P a → Reads (k a) mid Q rest) :
    Reads (p >>= k) ts Q rest := by
  intro s hs
  obtain ⟨a, t, ha, hP, ht, hf⟩ := hp s hs
  obtain ⟨b, u, hb, hQ, hu, hg⟩ := hk a hP t ht
  exact ⟨b, u, by rw [bind_of_eq_some ha, hb], hQ, hu, hg.trans hf⟩

/-- What is read behind a reader whose answer is known. -/
theorem Reads.seq {k : α → Reader β} {a : α} (hp : Reads p ts (· = a) mid) (hk : Reads (k a) mid Q rest) :
    Reads (p >>= k) ts Q rest := by
  refine hp.bind ?_
  rintro _ rfl
  exact hk

theorem Reads.imp {P' : α → Prop} (h : Reads p ts P rest) (hP : ∀ a, P a → P' a) : Reads p ts P' rest := by
  intro s hs
  obtain ⟨a, t, ha, hPa, ht⟩ := h s hs
  exact ⟨a, t, ha, hP a hPa, ht⟩

theorem Fails.bind {k : α → Reader β} (h : Fails p ts) : Fails (p >>= k) ts := fun s hs => bind_of_eq_none (h s hs)

theorem Reads.fails {k : α → Reader β} {a : α} (hp : Reads p ts (· = a) mid) (hk : Fails (k a) mid) : Fails (p >>= k) ts := by
  intro s hs
  obtain ⟨_, t, ha, rfl, ht, -⟩ := hp s hs
  rw [bind_of_eq_some ha, hk t ht]

/-! ### Steps -/

section
variable {test : List Token → Bool} [hu : Unplaced test]

theorem Unplaced.of_bareAll {ts' : List Token} (h : bareAll ts' = ts) : test ts' = test ts := by
  rw [← h, hu.eq]

theorem reads_ahead (h : test ts = b) : Reads (ahead test) ts (· = b) ts := by
  intro s hs
  exact ⟨test s.rest, s, rfl, (Unplaced.of_bareAll hs).trans h, hs, rfl⟩

theorem Reads.unless {p q : Reader α} (h : test ts = false) (hq : Reads q ts P rest) :
    Reads (ahead test >>= fun b => if b then p else q) ts P rest :=
  (reads_ahead h).seq hq

theorem Reads.when {p q : Reader α} (h : test ts) (hp : Reads p ts P rest) :
    Reads (ahead test >>= fun b => if b then p else q) ts P rest :=
  (reads_ahead h).seq hp

/-- What is read behind a look at the tokens that are left. -/
theorem reads_get {k : ReaderState → Reader β}
    (h : ∀ r written found, bareAll r = ts → Reads (k ⟨r, written, found⟩) ts Q rest) : Reads (get >>= k) ts Q rest :=
  fun s hs => h s.rest s.written s.found hs s hs

theorem Reads.unless_rest {p q : Reader α} {r : List Token} (hr : bareAll r = ts) (h : test ts = false) (hq : Reads q ts P rest) :
    Reads (if test r then p else q) ts P rest := by
  have hf : test r = false := (Unplaced.of_bareAll hr).trans h
  rw [hf]
  exact hq

theorem Reads.when_rest {p q : Reader α} {r : List Token} (hr : bareAll r = ts) (h : test ts) (hp : Reads p ts P rest) :
    Reads (if test r then p else q) ts P rest := by
  have ht : test r = true := (Unplaced.of_bareAll hr).trans h
  rw [if_pos ht]
  exact hp

theorem reads_require {condition : Bool} (h : condition) : Reads (require condition) ts (fun _ => True) ts := by
  rw [require, if_pos h]
  exact Reads.pure trivial

theorem fails_require {condition : Bool} (h : condition = false) : Fails (require condition) ts := by
  rw [require, h]
  exact fun _ _ => rfl

end

theorem eq_nil_of_bareAll {ts : List Token} (h : bareAll ts = []) : ts = [] := by
  cases ts with
  | nil => rfl
  | cons => cases h

theorem exists_of_bareAll_cons {ts' : List Token} (h : bareAll ts' = t :: ts) :
    ∃ t' behind, ts' = t' :: behind ∧ t'.bare = t ∧ bareAll behind = ts := by
  cases ts' with
  | nil => cases h
  | cons t' behind =>
    obtain ⟨ht, hs⟩ := List.cons.inj h
    exact ⟨t', behind, rfl, ht, hs⟩

theorem exists_of_bareAll_ident {raw : Bool} {name : String} {ts' : List Token} (h : bareAll ts' = .ident raw name default :: ts) :
    ∃ extent behind, ts' = .ident raw name extent :: behind ∧ bareAll behind = ts := by
  obtain ⟨t, behind, rfl, ht, hb⟩ := exists_of_bareAll_cons h
  cases t with
  | ident raw name extent =>
    cases ht
    exact ⟨extent, behind, rfl, hb⟩
  | _ => cases ht

theorem exists_of_bareAll_punct {c : Char} {joint : Bool} {ts' : List Token} (h : bareAll ts' = .punct c joint default :: ts) :
    ∃ extent behind, ts' = .punct c joint extent :: behind ∧ bareAll behind = ts := by
  obtain ⟨t, behind, rfl, ht, hb⟩ := exists_of_bareAll_cons h
  cases t with
  | punct c joint extent =>
    cases ht
    exact ⟨extent, behind, rfl, hb⟩
  | _ => cases ht

theorem exists_of_bareAll_literal {spelling : String} {ts' : List Token} (h : bareAll ts' = .literal spelling default :: ts) :
    ∃ extent behind, ts' = .literal spelling extent :: behind ∧ bareAll behind = ts := by
  obtain ⟨t, behind, rfl, ht, hb⟩ := exists_of_bareAll_cons h
  cases t with
  | literal spelling extent =>
    cases ht
    exact ⟨extent, behind, rfl, hb⟩
  | _ => cases ht

theorem exists_of_bareAll_group {delimiter : Delimiter} {content ts' : List Token}
    (h : bareAll ts' = .group delimiter content default :: ts) : ∃ content' extent behind,
      ts' = .group delimiter content' extent :: behind ∧ bareAll content' = content ∧ bareAll behind = ts := by
  obtain ⟨t, behind, rfl, ht, hb⟩ := exists_of_bareAll_cons h
  cases t with
  | group d content' extent =>
    cases ht
    exact ⟨content', extent, behind, rfl, rfl, hb⟩
  | _ => cases ht

theorem reads_anyToken : Reads anyToken (t :: ts) (fun t' => t'.bare = t) ts := by
  intro s hs
  obtain ⟨t', behind, hr, ht, hb⟩ := exists_of_bareAll_cons hs
  exact ⟨t', _, anyToken_eq_some_iff.mpr ⟨behind, hr, rfl⟩, ht, hb, rfl⟩

theorem reads_anyName {raw : Bool} {name : String} : Reads anyName (.ident raw name default :: ts) (· = name) ts := by
  refine reads_anyToken.bind fun t ht => ?_
  cases t with
  | ident raw' name' extent =>
    cases ht
    exact Reads.pure rfl
  | _ => cases ht

theorem reads_nameIf {test : List Token → Bool} [Unplaced test] {raw : Bool} {name : String}
    (h : test (.ident raw name default :: ts)) : Reads (nameIf test) (.ident raw name default :: ts) (· = name) ts :=
  (reads_ahead h).seq ((reads_require rfl).bind fun _ _ => reads_anyName)

theorem isWord_word (text : String) (ts : List Token) : isWord text (.ident false text default :: ts) := decide_eq_true rfl

theorem reads_word (text : String) : Reads (word text) (.ident false text default :: ts) (fun _ => True) ts :=
  (reads_ahead (isWord_word text ts)).seq ((reads_require rfl).bind fun _ _ =>
    reads_anyToken.bind fun _ _ => Reads.pure trivial)

theorem fails_word {text : String} (h : isWord text ts = false) : Fails (word text) ts :=
  (reads_ahead h).fails (fails_require rfl).bind

theorem reads_word? (text : String) : Reads (word? text) (.ident false text default :: ts) (· = true) ts :=
  Reads.when (isWord_word text ts) ((reads_word text).bind fun _ _ => Reads.pure rfl)

theorem reads_word?_of_not {text : String} (h : isWord text ts = false) : Reads (word? text) ts (· = false) ts :=
  Reads.unless h (Reads.pure rfl)

theorem Reads.unless_word {text : String} {p q : Reader α} (h : isWord text ts = false) (hq : Reads q ts P rest) :
    Reads (word? text >>= fun b => if b then p else q) ts P rest :=
  (reads_word?_of_not h).seq hq

/-! ### Marks -/

theorem takeMark_of_bareAll {cs : List Char} (hc : cs ≠ []) {ts' : List Token} (h : bareAll ts' = Token.mark cs ++ ts) :
    marks cs ts' ∧ ∃ taken behind, takeMark cs ts' = some (taken, behind) ∧ bareAll behind = ts := by
  induction cs generalizing ts' with
  | nil => exact absurd rfl hc
  | cons c cs ih =>
    cases cs with
    | nil =>
      obtain ⟨t, behind, rfl, ht, hb⟩ := exists_of_bareAll_cons h
      cases t with
      | punct d joint extent =>
        cases ht
        exact ⟨decide_eq_true rfl, [.punct c false extent], behind, by rw [takeMark, if_pos rfl], hb⟩
      | _ => cases ht
    | cons d cs =>
      obtain ⟨t, behind, rfl, ht, hb⟩ := exists_of_bareAll_cons h
      cases t with
      | punct e joint extent =>
        cases ht
        obtain ⟨hm, taken, rest, htake, hrest⟩ := ih (List.cons_ne_nil d cs) hb
        refine ⟨?_, .punct c true extent :: taken, rest, ?_, hrest⟩
        · rw [marks, hm, Bool.and_true]
          · exact decide_eq_true rfl
          · exact List.cons_ne_nil d cs
        · rw [takeMark, if_pos rfl, htake]
          · rfl
          · exact List.cons_ne_nil d cs
      | _ => cases ht

theorem reads_mark {text : String} (hc : text.toList ≠ []) :
    Reads (mark text) (Token.mark text.toList ++ ts) (fun _ => True) ts := by
  intro s hs
  obtain ⟨-, taken, behind, ht, hb⟩ := takeMark_of_bareAll hc hs
  exact ⟨(), _, mark_eq_some_iff.mpr ⟨taken, behind, ht, rfl⟩, trivial, hb, rfl⟩

theorem reads_mark? {text : String} (hc : text.toList ≠ []) :
    Reads (mark? text) (Token.mark text.toList ++ ts) (· = true) ts := by
  intro s hs
  obtain ⟨hm, taken, behind, ht, hb⟩ := takeMark_of_bareAll hc hs
  exact ⟨true, _, mark?_eq_true_iff.mpr ⟨hm, mark_eq_some_iff.mpr ⟨taken, behind, ht, rfl⟩⟩, rfl, hb, rfl⟩

theorem reads_mark?_of_not {text : String} (h : isMark text ts = false) : Reads (mark? text) ts (· = false) ts :=
  Reads.unless h (Reads.pure rfl)

theorem Reads.unless_mark {text : String} {p q : Reader α} (h : isMark text ts = false) (hq : Reads q ts P rest) :
    Reads (mark? text >>= fun b => if b then p else q) ts P rest :=
  (reads_mark?_of_not h).seq hq

/-! ### Groups -/

theorem reads_inGroup {delimiter : Delimiter} {content : List Token} (h : Reads p content P []) :
    Reads (inGroup delimiter p) (.group delimiter content default :: ts) P ts := by
  intro s hs
  obtain ⟨content', extent, behind, hr, hc, hb⟩ := exists_of_bareAll_group hs
  obtain ⟨a, inside, ha, hP, hi, hf⟩ := h ⟨content', #[], s.found⟩ hc
  exact ⟨a, _, inGroup_eq_some_iff.mpr ⟨content', extent, behind, inside, hr, ha, eq_nil_of_bareAll hi, rfl⟩, hP, hb, hf⟩

/-! ### Readers around readers -/

theorem Reads.collecting (h : Reads p ts P rest) : Reads (collecting p) ts (fun r => P r.1 ∧ r.2 = []) rest := by
  intro s hs
  obtain ⟨a, t, ha, hP, ht, hf⟩ := h { s with found := #[] } hs
  refine ⟨(a, t.found.toList), _, collecting_eq_some_iff.mpr ⟨t, ha, rfl, rfl⟩, ⟨hP, ?_⟩, ht, rfl⟩
  rw [hf]

theorem Reads.capturing (h : Reads p ts P rest) : Reads (capturing p) ts (fun r => P r.1) rest := by
  intro s hs
  obtain ⟨a, t, ha, hP, ht, hf⟩ := h { s with written := #[] } hs
  exact ⟨(a, t.written.toList), _, capturing_eq_some_iff.mpr ⟨t, ha, rfl, rfl⟩, hP, ht, hf⟩

theorem reads_write (taken : List Token) : Reads (write taken) ts (fun _ => True) ts :=
  fun s hs => ⟨(), { s with written := s.written ++ taken }, rfl, trivial, hs, rfl⟩

theorem Fails.attempt (h : Fails p ts) : Reads (attempt p) ts (· = none) ts := by
  intro s hs
  refine ⟨none, s, ?_, rfl, hs, rfl⟩
  rw [attempt_eq, h s hs]
  rfl

/-! ### Repetition -/

variable {step : σ → Reader (Bool × σ)} {a : σ} {P : σ → Prop}

/-- Steps up to one that asks for no more. -/
inductive Repeats (step : σ → Reader (Bool × σ)) : Nat → σ → List Token → (σ → Prop) → List Token → Prop
  | stop {n : Nat} {a : σ} {ts rest : List Token} {P : σ → Prop} (h : Reads (step a) ts (fun r => r.1 = false ∧ P r.2) rest) :
    Repeats step (n + 1) a ts P rest
  | more {n : Nat} {a : σ} {ts mid rest : List Token} {P Q : σ → Prop} (h : Reads (step a) ts (fun r => r.1 = true ∧ Q r.2) mid)
      (hs : ∀ b, Q b → Repeats step n b mid P rest) : Repeats step (n + 1) a ts P rest

/-- A step with a known answer that asks for more. -/
theorem Repeats.next {n : Nat} {b : σ} (h : Reads (step a) ts (· = (true, b)) mid) (hs : Repeats step n b mid P rest) :
    Repeats step (n + 1) a ts P rest := by
  refine .more (h.imp ?_) ?_ (Q := (· = b))
  · rintro _ rfl
    exact ⟨rfl, rfl⟩
  · rintro _ rfl
    exact hs

theorem Repeats.reads {n fuel : Nat} (h : Repeats step n a ts P rest) (hn : n ≤ fuel) : Reads (iterateUpTo fuel step a) ts P rest := by
  induction h generalizing fuel with
  | stop h =>
    obtain ⟨fuel, rfl⟩ : ∃ k, fuel = k + 1 := ⟨fuel - 1, by omega⟩
    refine Reads.bind h ?_
    rintro ⟨_, b⟩ ⟨rfl, hP⟩
    exact Reads.pure hP
  | more h hs ih =>
    obtain ⟨fuel, rfl⟩ : ∃ k, fuel = k + 1 := ⟨fuel - 1, by omega⟩
    refine Reads.bind h ?_
    rintro ⟨_, b⟩ ⟨rfl, hQ⟩
    exact ih b hQ (Nat.le_of_succ_le_succ hn)

theorem length_bareAll (ts : List Token) : (bareAll ts).length = ts.length := by rw [bareAll_eq_map, List.length_map]

theorem Repeats.iterate {n : Nat} (h : Repeats step n a ts P rest) (hn : n ≤ ts.length + 1) : Reads (iterate step a) ts P rest := by
  intro s hs
  have hl : s.rest.length = ts.length := by rw [← hs, length_bareAll]
  exact h.reads (hl ▸ hn) s hs

/-- A first step that asks for no more. -/
theorem Reads.iterate (h : Reads (step a) ts (fun r => r.1 = false ∧ P r.2) rest) : Reads (iterate step a) ts P rest :=
  (Repeats.stop (n := 0) h).iterate (Nat.succ_le_succ (Nat.zero_le _))

theorem Fails.iterateUpTo (h : Fails (step a) ts) (fuel : Nat) : Fails (iterateUpTo fuel step a) ts := by
  cases fuel with
  | zero => exact fun _ _ => rfl
  | succ => exact h.bind

/-- A step with a known answer in front of what cannot be read. -/
theorem Reads.fails_iterateUpTo {b : σ} (h : Reads (step a) ts (· = (true, b)) mid)
    (hs : ∀ fuel, Fails (iterateUpTo fuel step b) mid) (fuel : Nat) : Fails (Reader.iterateUpTo fuel step a) ts := by
  cases fuel with
  | zero => exact fun _ _ => rfl
  | succ fuel => exact h.fails (hs fuel)

theorem fails_iterate (h : ∀ fuel, Fails (iterateUpTo fuel step a) ts) : Fails (iterate step a) ts :=
  fun s hs => h _ s hs

end GeneratorHost.Reader
