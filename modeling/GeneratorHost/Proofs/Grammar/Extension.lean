import GeneratorHost.Proofs.Grammar.Sequel

/-! Readers in front of a sequel. What a reader reads of some tokens another one reads of the same tokens with the sequel
behind them, and leaves the sequel. The other reader is the same with productions that can go deeper. -/
namespace GeneratorHost

/-- The state with a sequel behind the tokens that are not read yet. -/
def ReaderState.before (s : ReaderState) (q : Reader.Sequel) : ReaderState := { s with rest := s.rest ++ q.tokens }

namespace Reader
open Sequel

/-- Tokens that a reader reads another one reads in front of a sequel. -/
class Extends (q : Sequel) {α : Type} (p p' : Reader α) : Prop where
  suffix : ∀ {s a s'}, p s = some (a, s') → s'.rest <:+ s.rest
  run : ∀ {s a s'}, p s = some (a, s') → q.Fits s'.rest → p' (s.before q) = some (a, s'.before q)

variable {α β σ : Type} {q : Sequel} {p p' : Reader α} {s s' : ReaderState} {a : α} {test : List Token → Bool}

@[simp] theorem before_nothing (s : ReaderState) : s.before nothing = s := by
  obtain ⟨rest, written, found⟩ := s
  exact congrArg (ReaderState.mk · written found) (List.append_nil rest)

/-! ### Sequences and choices -/

theorem Extends.bind {f f' : α → Reader β} (hp : Extends q p p') (hf : ∀ a, Extends q (f a) (f' a)) :
    Extends q (p >>= f) (p' >>= f') where
  suffix h := by
    obtain ⟨a, t, ha, hb⟩ := bind_eq_some_iff.mp h
    exact ((hf a).suffix hb).trans (hp.suffix ha)
  run h hs := by
    obtain ⟨a, t, ha, hb⟩ := bind_eq_some_iff.mp h
    rw [bind_of_eq_some (hp.run ha (hs.of_suffix ((hf a).suffix hb)))]
    exact (hf a).run hb hs

instance {f f' : α → Reader β} [hp : Extends q p p'] [hf : ∀ a, Extends q (f a) (f' a)] : Extends q (p >>= f) (p' >>= f') :=
  hp.bind hf

instance (a : α) : Extends q (pure a) (pure a) where
  suffix h := by
    cases h
    exact List.suffix_rfl
  run h _ := by
    cases h
    rfl

instance (f : α → β) [hp : Extends q p p'] : Extends q (f <$> p) (f <$> p') :=
  inferInstanceAs (Extends q (p >>= fun a => pure (f a)) (p' >>= fun a => pure (f a)))

theorem Extends.ite {c : Prop} [Decidable c] {r r' : Reader α} (hp : Extends q p p') (hr : Extends q r r') :
    Extends q (if c then p else r) (if c then p' else r') := by
  split
  · exact hp
  · exact hr

instance {c : Prop} [Decidable c] {r r' : Reader α} [hp : Extends q p p'] [hr : Extends q r r'] :
    Extends q (if c then p else r) (if c then p' else r') :=
  hp.ite hr

instance : Extends q (failure : Reader α) p where
  suffix h := by cases h
  run h := by cases h

/-- A reader goes on with what it sees of the state. -/
theorem Extends.get_bind_of {f f' : ReaderState → Reader α} (h : ∀ s a s', f s s = some (a, s') → s'.rest <:+ s.rest)
    (hf : ∀ s, q.Fits s.rest → Extends q (f s) (f' (s.before q))) : Extends q (get >>= f) (get >>= f') where
  suffix := fun {s a s'} hs => h s a s' hs
  run := fun {s a s'} hs hq => (hf s (hq.of_suffix (h s a s' hs))).run hs hq

/-- What it sees of a sequel that begins with an attribute is no more than that. -/
theorem Extends.get_bind_quiet {f : ReaderState → Reader α} [Quiet q]
    (hf : ∀ {q : Sequel} [Quiet q] (s : ReaderState), Extends q (f s) (f (s.before q))) : Extends q (get >>= f) (get >>= f) :=
  .get_bind_of (fun s _ _ h => (hf (q := nothing) s).suffix h) fun s _ => hf s

theorem Extends.get_bind {f f' : ReaderState → Reader α} (h : ∀ s, Extends nothing (f s) (f' s))
    (hf : ∀ s, q.Fits s.rest → Extends q (f s) (f' (s.before q))) : Extends q (get >>= f) (get >>= f') :=
  .get_bind_of (fun s _ _ hs => (h s).suffix hs) hf

instance : Extends nothing (get : Reader ReaderState) get where
  suffix h := by
    cases h
    exact List.suffix_rfl
  run h _ := by
    cases h
    rw [before_nothing]
    rfl

/-- What is told from the tokens of a state, whether the sequel stands behind them or not. -/
class Tells (q : Sequel) (sees : ReaderState → Bool) : Prop where
  eq : ∀ s, q.Fits s.rest → sees (s.before q) = sees s

instance [h : Steady q test] : Tells q fun s => test s.rest where
  eq s hs := h.eq s.rest hs

instance [h : Steady q fun ts => test (skip ts)] : Tells q fun s => test (skip s.rest) where
  eq s hs := h.eq s.rest hs

instance [h : Steady q fun ts => test (skip (skip ts))] : Tells q fun s => test (skip (skip s.rest)) where
  eq s hs := h.eq s.rest hs

section
variable (sees sees' : ReaderState → Bool)

instance [h : Tells q sees] [h' : Tells q sees'] : Tells q fun s => sees s || sees' s where
  eq s hs := by rw [h.eq s hs, h'.eq s hs]

instance [h : Tells q sees] [h' : Tells q sees'] : Tells q fun s => sees s && sees' s where
  eq s hs := by rw [h.eq s hs, h'.eq s hs]

end

/-- A choice by what is seen. -/
instance {sees : ReaderState → Bool} {f f' r r' : ReaderState → Reader α} [ht : Tells q sees]
    [hf : Extends q (get >>= f) (get >>= f')] [hr : Extends q (get >>= r) (get >>= r')] :
    Extends q (get >>= fun s => if sees s = true then f s else r s) (get >>= fun s => if sees s = true then f' s else r' s) where
  suffix := fun {s a s'} h => by
    rw [get_bind] at h
    split at h
    · exact hf.suffix h
    · exact hr.suffix h
  run := fun {s a s'} h hs => by
    rw [get_bind] at h ⊢
    split at h
    · rename_i hc
      rw [ht.eq s (hs.of_suffix (hf.suffix h)), if_pos hc]
      exact hf.run h hs
    · rename_i hc
      rw [ht.eq s (hs.of_suffix (hr.suffix h)), if_neg hc]
      exact hr.run h hs

instance [hp : Extends q p p'] : Extends q (get >>= fun _ => p) (get >>= fun _ => p') where
  suffix h := hp.suffix h
  run h hs := hp.run h hs

theorem extends_modify {f : ReaderState → ReaderState} (hr : ∀ s, (f s).rest = s.rest)
    (hf : ∀ s : ReaderState, f (s.before q) = (f s).before q) : Extends q (modify f) (modify f) where
  suffix := fun {s} _ _ h => by
    cases h
    exact (hr s).symm ▸ List.suffix_rfl
  run := fun {s} _ _ h _ => by
    cases h
    exact congrArg (fun s => some (_, s)) (hf s)

/-! ### Looking ahead -/

instance [ht : Steady q test] : Extends q (ahead test) (ahead test) where
  suffix h := by
    cases h
    exact List.suffix_rfl
  run h hq := by
    cases h
    exact congrArg (fun b => some (b, _)) (ht.eq _ hq)

instance [ht : Steady q fun ts => test (skip ts)] : Extends q (ahead2 test) (ahead2 test) :=
  inferInstanceAs (Extends q (ahead fun ts => test (skip ts)) (ahead fun ts => test (skip ts)))

instance [ht : Steady q fun ts => test (skip (skip ts))] : Extends q (ahead3 test) (ahead3 test) :=
  inferInstanceAs (Extends q (ahead fun ts => test (skip (skip ts))) (ahead fun ts => test (skip (skip ts))))

instance [Quiet q] : Extends q atEnd atEnd := inferInstanceAs (Extends q (ahead List.isEmpty) (ahead List.isEmpty))

instance (condition : Bool) : Extends q (require condition) (require condition) where
  suffix h := by
    obtain ⟨-, rfl⟩ := require_eq_some_iff.mp h
    exact List.suffix_rfl
  run h _ := by
    obtain ⟨hc, rfl⟩ := require_eq_some_iff.mp h
    exact require_eq_some_iff.mpr ⟨hc, rfl⟩

/-! ### Steps -/

instance (ts : List Token) : Extends q (write ts) (write ts) := extends_modify (fun _ => rfl) fun _ => rfl

instance (d : Declaration) : Extends q (declare d) (declare d) := extends_modify (fun _ => rfl) fun _ => rfl

instance (written : ReaderState → Array Token) : Extends nothing (get >>= fun s => set { s with written := written s } : Reader Unit)
    (get >>= fun s => set { s with written := written s }) where
  suffix h := by
    cases h
    exact List.suffix_rfl
  run h _ := by
    rw [before_nothing, before_nothing]
    exact h

instance : Extends q anyToken anyToken where
  suffix h := by
    obtain ⟨rest, hr, rfl⟩ := anyToken_eq_some_iff.mp h
    rw [hr]
    exact List.suffix_cons _ rest
  run := fun {s} _ _ h _ => by
    obtain ⟨rest, hr, rfl⟩ := anyToken_eq_some_iff.mp h
    refine anyToken_eq_some_iff.mpr ⟨rest ++ q.tokens, ?_, rfl⟩
    rw [ReaderState.before, hr]
    rfl

theorem takeMark_append {cs : List Char} {ts marks rest : List Token} (h : takeMark cs ts = some (marks, rest))
    (more : List Token) : takeMark cs (ts ++ more) = some (marks, rest ++ more) := by
  fun_induction takeMark cs ts generalizing marks rest with
  | case1 =>
    cases h
    rw [List.cons_append, takeMark, if_pos rfl]
  | case3 c cs e ts hn ih =>
    obtain ⟨⟨marks', rest'⟩, hm, he⟩ := Option.map_eq_some_iff.mp h
    cases he
    rw [List.cons_append, takeMark, if_pos rfl, ih hm]
    · rfl
    · exact hn
  | _ => cases h

instance (text : String) : Extends q (mark text) (mark text) where
  suffix h := by
    obtain ⟨read, wrote, hp, -⟩ := exists_read_of_mark h
    exact ⟨read, hp.rest.symm⟩
  run h _ := by
    obtain ⟨marks, rest, hm, rfl⟩ := mark_eq_some_iff.mp h
    exact mark_eq_some_iff.mpr ⟨marks, rest ++ q.tokens, takeMark_append hm q.tokens, rfl⟩

instance : Extends q anyMark anyMark := by
  refine .get_bind_of (fun s a s' h => ?_) fun s _ => ?_
  · obtain ⟨_ | ⟨t, ts⟩, written, found⟩ := s
    · cases h
    · cases t with
      | punct c => exact (inferInstance : Extends q (mark c.toString >>= fun _ => pure c) (mark c.toString >>= fun _ => pure c)).suffix h
      | _ => cases h
  · obtain ⟨_ | ⟨t, ts⟩, written, found⟩ := s
    · exact inferInstanceAs (Extends q failure _)
    · cases t with
      | punct c => exact inferInstanceAs (Extends q (mark c.toString >>= fun _ => pure c) (mark c.toString >>= fun _ => pure c))
      | _ => exact inferInstanceAs (Extends q failure _)

instance : Extends q anyName anyName := by
  unfold anyName
  refine .bind inferInstance fun t => ?_
  split <;> infer_instance

section
variable [Quiet q]

instance (text : String) : Extends q (word text) (word text) := by
  unfold word
  infer_instance

instance (text : String) : Extends q (mark? text) (mark? text) := by
  unfold mark?
  infer_instance

instance (text : String) : Extends q (word? text) (word? text) := by
  unfold word?
  infer_instance

instance [Steady q test] : Extends q (nameIf test) (nameIf test) := by
  unfold nameIf
  infer_instance

instance : Extends q name name := by
  unfold name
  infer_instance

instance : Extends q lifetime lifetime := by
  unfold lifetime
  infer_instance

instance : Extends q lifetime? lifetime? := by
  unfold lifetime?
  infer_instance

end

/-- What makes a literal does not depend on what stands behind it. -/
theorem exists_read_of_literal {s s' : ReaderState} {u : Unit} (h : literal s = some (u, s')) :
    ∃ read, s.rest = read ++ s'.rest ∧ literal (s.before q) = some (u, s'.before q) := by
  obtain ⟨ts, written, found⟩ := s
  have hone {t : Token} {us : List Token} (h : (require (isLiteral [t]) >>= fun _ => anyToken >>= fun _ => pure ())
      ⟨t :: us, written, found⟩ = some (u, s')) :
      ∃ read, t :: us = read ++ s'.rest ∧ (require (isLiteral [t]) >>= fun _ => anyToken >>= fun _ => pure ())
        ⟨t :: (us ++ q.tokens), written, found⟩ = some (u, s'.before q) := by
    obtain ⟨_, _, hr, ha⟩ := bind_eq_some_iff.mp h
    obtain ⟨hl, rfl⟩ := require_eq_some_iff.mp hr
    cases ha
    exact ⟨[t], rfl, by rw [hl]; rfl⟩
  cases ts with
  | nil => cases h
  | cons t us =>
    cases t with
    | ident raw => cases raw <;> exact hone h
    | literal => exact hone h
    | group => cases h
    | punct c joint e =>
      by_cases hc : c = '-'
      · subst hc
        cases us with
        | nil => cases h
        | cons v us =>
          cases v with
          | literal spelling f =>
            rw [literal, get_bind] at h ⊢
            obtain ⟨_, _, hr, ha⟩ := bind_eq_some_iff.mp h
            obtain ⟨hl, rfl⟩ := require_eq_some_iff.mp hr
            cases ha
            exact ⟨[_, _], rfl, bind_eq_some_iff.mpr ⟨(), _, require_eq_some_iff.mpr ⟨hl, rfl⟩, rfl⟩⟩
          | _ => cases h
      · have hl : isLiteral (.punct c joint e :: us) = false := by simp [isLiteral, hc, isWord]
        have hr : (require (isLiteral (.punct c joint e :: us)) >>= fun _ => anyToken >>= fun _ => pure ())
            ⟨.punct c joint e :: us, written, found⟩ = some (u, s') := by
          rw [literal, get_bind] at h
          simpa [hc] using h
        rw [hl] at hr
        cases hr

instance : Extends q literal literal where
  suffix h := by
    obtain ⟨read, hr, -⟩ := @exists_read_of_literal nothing _ _ _ h
    exact ⟨read, hr.symm⟩
  run h _ := by
    obtain ⟨-, -, hr⟩ := exists_read_of_literal h
    exact hr

instance : Extends q anyGroup anyGroup := by
  unfold anyGroup
  refine .bind inferInstance fun t => ?_
  split <;> infer_instance

instance : Extends nothing remaining remaining where
  suffix h := by
    cases h
    exact List.nil_suffix
  run h _ := by
    rw [before_nothing, before_nothing]
    exact h

/-! ### Readers around readers -/

/-- What is in a group has nothing behind it. -/
instance (delimiter : Delimiter) [hp : Extends nothing p p'] : Extends q (inGroup delimiter p) (inGroup delimiter p') where
  suffix h := by
    obtain ⟨content, extent, rest, inside, hr, -, -, rfl⟩ := inGroup_eq_some_iff.mp h
    rw [hr]
    exact List.suffix_cons _ rest
  run := fun {s} _ _ h _ => by
    obtain ⟨content, extent, rest, inside, hr, hc, hi, rfl⟩ := inGroup_eq_some_iff.mp h
    have hc := hp.run hc trivial
    rw [before_nothing, before_nothing] at hc
    refine inGroup_eq_some_iff.mpr ⟨content, extent, rest ++ q.tokens, inside, ?_, hc, hi, rfl⟩
    rw [ReaderState.before, hr]
    rfl

instance [Extends nothing p p'] : Extends q (parenthesized p) (parenthesized p') := by
  unfold parenthesized
  infer_instance

instance [Extends nothing p p'] : Extends q (bracketed p) (bracketed p') := by
  unfold bracketed
  infer_instance

instance [Extends nothing p p'] : Extends q (braced p) (braced p') := by
  unfold braced
  infer_instance

instance [hp : Extends q p p'] : Extends q (collecting p) (collecting p') where
  suffix h := by
    obtain ⟨t, ht, -, rfl⟩ := collecting_eq_some_iff.mp h
    exact (hp.suffix ht :)
  run h hq := by
    obtain ⟨t, ht, hd, rfl⟩ := collecting_eq_some_iff.mp h
    exact collecting_eq_some_iff.mpr ⟨t.before q, hp.run ht hq, hd, rfl⟩

instance [hp : Extends q p p'] : Extends q (capturing p) (capturing p') where
  suffix h := by
    obtain ⟨t, ht, -, rfl⟩ := capturing_eq_some_iff.mp h
    exact (hp.suffix ht :)
  run h hq := by
    obtain ⟨t, ht, hd, rfl⟩ := capturing_eq_some_iff.mp h
    exact capturing_eq_some_iff.mpr ⟨t.before q, hp.run ht hq, hd, rfl⟩

instance [Extends q p p'] : Extends q (spanning p) (spanning p') := by
  unfold spanning
  infer_instance

theorem take_before (ts us more : List Token) :
    (ts ++ more).take ((ts ++ more).length - (us ++ more).length) = ts.take (ts.length - us.length) := by
  rw [List.length_append, List.length_append, Nat.add_sub_add_right,
    List.take_append_of_le_length (Nat.sub_le ts.length us.length)]

theorem verbatim_eq_some_iff : verbatim p s = some (a, s') ↔ ∃ t, p s = some (a, t) ∧ s' = { s with
    rest := t.rest
    written := s.written ++ s.rest.take (s.rest.length - t.rest.length) } := by
  refine ⟨exists_of_verbatim, ?_⟩
  rintro ⟨t, hp, rfl⟩
  change (p s >>= fun r => some (r.1, { s with
    rest := r.2.rest
    written := s.written ++ s.rest.take (s.rest.length - r.2.rest.length) })) = _
  rw [hp]
  rfl

instance [hp : Extends q p p'] : Extends q (verbatim p) (verbatim p') where
  suffix h := by
    obtain ⟨t, ht, rfl⟩ := verbatim_eq_some_iff.mp h
    exact (hp.suffix ht :)
  run := fun {s} a _ h hq => by
    obtain ⟨t, ht, rfl⟩ := verbatim_eq_some_iff.mp h
    refine verbatim_eq_some_iff.mpr ⟨t.before q, hp.run ht hq, ?_⟩
    simp only [ReaderState.before, take_before]

theorem attempt_eq_some_iff {a? : Option α} : attempt p s = some (a?, s') ↔
    (∃ a, a? = some a ∧ p s = some (a, s')) ∨ (a? = none ∧ p s = none ∧ s' = s) := by
  rw [attempt_eq]
  cases p s with
  | none =>
    constructor
    · rintro ⟨⟩
      exact .inr ⟨rfl, rfl, rfl⟩
    · rintro (⟨a, -, ⟨⟩⟩ | ⟨rfl, -, rfl⟩)
      rfl
  | some r =>
    constructor
    · rintro ⟨⟩
      exact .inl ⟨r.1, rfl, rfl⟩
    · rintro (⟨a, rfl, ⟨⟩⟩ | ⟨-, ⟨⟩, -⟩)
      rfl

theorem Extends.attempt_bind {f f' : Option α → Reader β} (hp : Extends q p p') (hf : ∀ a?, Extends q (f a?) (f' a?))
    (hn : ∀ s r, q.Fits s.rest → p s = none → f none s = some r → p' (s.before q) = none) :
    Extends q (attempt p >>= f) (attempt p' >>= f') where
  suffix h := by
    obtain ⟨a?, t, ha, hb⟩ := bind_eq_some_iff.mp h
    refine ((hf a?).suffix hb).trans ?_
    obtain ⟨a, -, ha⟩ | ⟨-, -, rfl⟩ := attempt_eq_some_iff.mp ha
    · exact hp.suffix ha
    · exact List.suffix_rfl
  run h hs := by
    obtain ⟨a?, t, ha, hb⟩ := bind_eq_some_iff.mp h
    have ht := hs.of_suffix ((hf a?).suffix hb)
    refine bind_eq_some_iff.mpr ⟨a?, t.before q, attempt_eq_some_iff.mpr ?_, (hf a?).run hb hs⟩
    obtain ⟨a, rfl, hr⟩ | ⟨rfl, hr, rfl⟩ := attempt_eq_some_iff.mp ha
    · exact .inl ⟨a, rfl, hp.run hr ht⟩
    · exact .inr ⟨rfl, hn t _ ht hr hb, rfl⟩

/-- What is read only where it is there, and is no more there with the sequel behind. -/
theorem Extends.attempt_of (hp : Extends q p p') (hn : ∀ s, q.Fits s.rest → p s = none → p' (s.before q) = none) :
    Extends q (attempt p) (attempt p') := by
  rw [← bind_pure (attempt p), ← bind_pure (attempt p')]
  exact hp.attempt_bind (fun _ => inferInstance) fun s _ hs hr _ => hn s hs hr

instance [hp : Extends nothing p p] : Extends nothing (attempt p) (attempt p) :=
  hp.attempt_of fun s _ hs => by rw [before_nothing, hs]

/-! ### Repetition -/

theorem iterateUpTo_extends {step step' : σ → Reader (Bool × σ)} (h : ∀ b, Extends q (step b) (step' b)) {fuel fuel' : Nat}
    (hf : fuel ≤ fuel') (b : σ) : Extends q (iterateUpTo fuel step b) (iterateUpTo fuel' step' b) := by
  induction fuel generalizing fuel' b with
  | zero => exact inferInstanceAs (Extends q failure _)
  | succ fuel ih =>
    obtain ⟨fuel', rfl⟩ : ∃ k, fuel' = k + 1 := ⟨fuel' - 1, by omega⟩
    have ih (b : σ) := ih (Nat.le_of_succ_le_succ hf) b
    rw [iterateUpTo, iterateUpTo]
    infer_instance

theorem Extends.iterate {step step' : σ → Reader (Bool × σ)} (h : ∀ b, Extends q (step b) (step' b)) (b : σ) :
    Extends q (iterate step b) (iterate step' b) := by
  unfold Reader.iterate
  refine .get_bind_of (fun s a s' hs => ?_) fun s _ => ?_
  · exact (iterateUpTo_extends h (Nat.le_refl _) b).suffix hs
  · exact iterateUpTo_extends h (by simp [ReaderState.before]) b

instance {step step' : σ → Reader (Bool × σ)} {b : σ} [h : ∀ b, Extends q (step b) (step' b)] :
    Extends q (iterate step b) (iterate step' b) :=
  .iterate h b

instance {step step' : Reader Bool} [Extends q step step'] : Extends q (repeating step) (repeating step') := by
  unfold repeating
  infer_instance

instance {p p' : Reader Unit} [Quiet q] [Extends q p p'] : Extends q (untilEnd p) (untilEnd p') := by
  unfold untilEnd
  infer_instance

instance {p p' : Reader Unit} [Quiet q] (separator : String) [Extends q p p'] :
    Extends q (separated separator p) (separated separator p') := by
  unfold separated
  infer_instance

end Reader
end GeneratorHost
