import GeneratorHost.Proofs.Grammar.Reader

/-! What readers do with known tokens ahead. -/
namespace GeneratorHost.Reader

variable {α β : Type} {p : Reader α} {s s' t : ReaderState}

/-! ### Sequences and choices -/

theorem bind_of_eq_some {p : Reader α} {k : α → Reader β} {a : α} (h : p s = some (a, t)) : (p >>= k) s = k a t := by
  change (p s).bind _ = _
  rw [h]
  rfl

theorem bind_of_eq_none {p : Reader α} {k : α → Reader β} (h : p s = none) : (p >>= k) s = none := by
  change (p s).bind _ = _
  rw [h]
  rfl

/-- What is done after a look at the state. -/
theorem get_bind {k : ReaderState → Reader α} (s : ReaderState) : (get >>= k) s = k s s := rfl

theorem ahead_bind (test : List Token → Bool) (k : Bool → Reader β) (s : ReaderState) :
    (ahead test >>= k) s = k (test s.rest) s := rfl

theorem ahead_bind_of_not {test : List Token → Bool} {p q : Reader α} (h : test s.rest = false) :
    (ahead test >>= fun b => if b then p else q) s = q s := by
  rw [ahead_bind, h]
  rfl

theorem ahead_bind_of {test : List Token → Bool} {p q : Reader α} (h : test s.rest) :
    (ahead test >>= fun b => if b then p else q) s = p s := by
  rw [ahead_bind, h]
  rfl

theorem require_eq_some_iff {condition : Bool} {s s' : ReaderState} {u : Unit} :
    require condition s = some (u, s') ↔ condition ∧ s' = s := by
  unfold require
  split
  · rename_i h
    constructor
    · rintro ⟨⟩
      exact ⟨h, rfl⟩
    · rintro ⟨-, rfl⟩
      rfl
  · rename_i h
    constructor
    · rintro ⟨⟩
    · rintro ⟨hc, -⟩
      exact absurd hc h

/-! ### Steps -/

theorem mark_eq_some_iff {text : String} {s s' : ReaderState} {u : Unit} : mark text s = some (u, s') ↔
    ∃ marks rest, takeMark text.toList s.rest = some (marks, rest) ∧
      s' = { s with rest, written := s.written ++ marks } := by
  unfold mark
  simp only [bind, StateT.bind, get, getThe, MonadStateOf.get, StateT.get, pure, Option.bind]
  cases ht : takeMark text.toList s.rest with
  | none =>
    simp only [reduceCtorEq, false_and, exists_false, iff_false]
    exact fun h => by cases h
  | some r =>
    obtain ⟨marks, rest⟩ := r
    constructor
    · rintro ⟨⟩
      exact ⟨marks, rest, rfl, rfl⟩
    · rintro ⟨_, _, ⟨⟩, rfl⟩
      rfl

theorem mark?_eq_true_iff {text : String} : mark? text s = some (true, t) ↔ isMark text s.rest ∧ mark text s = some ((), t) := by
  unfold mark?
  rw [ahead_bind]
  cases isMark text s.rest with
  | false =>
    constructor
    · rintro ⟨⟩
    · rintro ⟨⟨⟩, -⟩
  | true =>
    rw [if_pos rfl, bind_eq_some_iff]
    constructor
    · rintro ⟨_, _, hm, hr⟩
      cases hr
      exact ⟨rfl, hm⟩
    · rintro ⟨-, hm⟩
      exact ⟨_, _, hm, rfl⟩

theorem anyToken_eq_some_iff {token : Token} : anyToken s = some (token, t) ↔
    ∃ rest, s.rest = token :: rest ∧ t = { s with rest, written := s.written.push token } := by
  obtain ⟨ts, written, found⟩ := s
  constructor
  · intro h
    cases ts with
    | nil => cases h
    | cons =>
      cases h
      exact ⟨_, rfl, rfl⟩
  · rintro ⟨rest, hr, rfl⟩
    cases hr
    rfl

theorem exists_of_word {text : String} {s t : ReaderState} {u : Unit} (h : word text s = some (u, t)) :
    ∃ e rest, s.rest = .ident false text e :: rest ∧ t = { s with rest, written := s.written.push (.ident false text e) } := by
  unfold word at h
  rw [ahead_bind] at h
  obtain ⟨_, _, hw, ha⟩ := bind_eq_some_iff.mp h
  obtain ⟨hw, rfl⟩ := require_eq_some_iff.mp hw
  obtain ⟨token, _, ha, hu⟩ := bind_eq_some_iff.mp ha
  cases hu
  obtain ⟨rest, hr, rfl⟩ := anyToken_eq_some_iff.mp ha
  rw [hr] at hw
  cases token with
  | ident raw name e =>
    cases raw with
    | false =>
      obtain rfl := of_decide_eq_true hw
      exact ⟨e, rest, hr, rfl⟩
    | true => cases hw
  | _ => cases hw

theorem of_word? {text : String} {s t : ReaderState} {there : Bool} (h : word? text s = some (there, t)) :
    word text s = some ((), t) ∨ t = s := by
  unfold word? at h
  rw [ahead_bind] at h
  split at h
  · obtain ⟨_, _, hw, hr⟩ := bind_eq_some_iff.mp h
    cases hr
    exact .inl hw
  · cases h
    exact .inr rfl

theorem of_mark? {text : String} {s t : ReaderState} {there : Bool} (h : mark? text s = some (there, t)) :
    (there ∧ mark text s = some ((), t)) ∨ (there = false ∧ t = s) := by
  unfold mark? at h
  rw [ahead_bind] at h
  split at h
  · obtain ⟨_, _, hm, hr⟩ := bind_eq_some_iff.mp h
    cases hr
    exact .inl ⟨rfl, hm⟩
  · cases h
    exact .inr ⟨rfl, rfl⟩

/-! ### Readers around readers -/

theorem inGroup_eq_some_iff {delimiter : Delimiter} {p : Reader α} {s s' : ReaderState} {a : α} :
    inGroup delimiter p s = some (a, s') ↔ ∃ content extent rest inside, s.rest = .group delimiter content extent :: rest ∧
      p ⟨content, #[], s.found⟩ = some (a, inside) ∧ inside.rest = [] ∧
      s' = ⟨rest, s.written.push (.group delimiter inside.written.toList extent), inside.found⟩ := by
  obtain ⟨ts, written, found⟩ := s
  unfold inGroup
  rw [get_bind]
  dsimp only
  constructor
  · intro h
    split at h
    · rename_i d content extent rest
      obtain ⟨_, t, hr, hc⟩ := bind_eq_some_iff.mp h
      obtain ⟨hd, rfl⟩ := require_eq_some_iff.mp hr
      cases hp : p ⟨content, #[], found⟩ with
      | none =>
        rw [hp] at hc
        cases hc
      | some r =>
        obtain ⟨b, inside⟩ := r
        rw [hp] at hc
        obtain ⟨_, t, hr', hw⟩ := bind_eq_some_iff.mp hc
        obtain ⟨hi, rfl⟩ := require_eq_some_iff.mp hr'
        cases hw
        exact ⟨content, extent, rest, inside, of_decide_eq_true hd ▸ rfl, hp, List.isEmpty_iff.mp hi,
          of_decide_eq_true hd ▸ rfl⟩
    · cases h
  · rintro ⟨content, extent, rest, inside, rfl, hp, hi, rfl⟩
    dsimp only
    rw [require, if_pos (decide_eq_true rfl), pure_bind, hp]
    dsimp only
    rw [require, if_pos (by rw [hi]; rfl), pure_bind]
    rfl

theorem collecting_eq_some_iff {s s' : ReaderState} {r : α × List Declaration} : collecting p s = some (r, s') ↔
    ∃ t, p { s with found := #[] } = some (r.1, t) ∧ r.2 = t.found.toList ∧ s' = { t with found := s.found } := by
  refine ⟨exists_of_collecting, ?_⟩
  obtain ⟨a, ds⟩ := r
  rintro ⟨t, hp, rfl, rfl⟩
  change (p { s with found := #[] } >>= fun r =>
    some ((r.1, r.2.found.toList), { r.2 with found := s.found })) = _
  rw [hp]
  rfl

theorem capturing_eq_some_iff {s s' : ReaderState} {r : α × List Token} : capturing p s = some (r, s') ↔
    ∃ t, p { s with written := #[] } = some (r.1, t) ∧ r.2 = t.written.toList ∧ s' = { t with written := s.written } := by
  refine ⟨exists_of_capturing, ?_⟩
  obtain ⟨a, ts⟩ := r
  rintro ⟨t, hp, rfl, rfl⟩
  change (p { s with written := #[] } >>= fun r =>
    some ((r.1, r.2.written.toList), { r.2 with written := s.written })) = _
  rw [hp]
  rfl

theorem attempt_eq (p : Reader α) (s : ReaderState) :
    attempt p s = (p s).elim (some (none, s)) fun r => some (some r.1, r.2) := by
  unfold attempt
  rw [get_bind]
  cases p s <;> rfl

end GeneratorHost.Reader
