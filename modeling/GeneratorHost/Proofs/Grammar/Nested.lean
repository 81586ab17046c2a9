import GeneratorHost.Proofs.Grammar.Inline

/-! Productions that only stand in groups, where nothing is behind them, and the groups themselves. -/
namespace GeneratorHost.Grammar
open Reader Reader.Sequel

set_option synthInstance.maxSize 100000

section
variable (g : Grammar)

/-! ### Receivers -/

theorem isLifetime_of_ne {c : Char} (hc : c ≠ Token.apostrophe) (joint : Bool) (e : Extent) (ts : List Token) :
    isLifetime (.punct c joint e :: ts) = false := by
  cases joint with
  | false => rfl
  | true =>
    rcases ts with _ | ⟨t, ts⟩
    · rfl
    · cases t with
      | ident => exact decide_eq_false hc
      | _ => rfl

/-- No type begins with a point, nor with a colon alone. -/
theorem type_eq_none {plus joint : Bool} {c : Char} {e : Extent} {ts : List Token} {w : Array Token} {f : Array Declaration}
    (hc : c = '.' ∨ c = ':' ∧ isMark "::" (.punct c joint e :: ts) = false) :
    type g plus ⟨.punct c joint e :: ts, w, f⟩ = none := by
  have hp : startsPath (.punct c joint e :: ts) = false := by
    obtain rfl | ⟨rfl, hm⟩ := hc
    · cases joint <;> rfl
    · unfold startsPath
      rw [hm]
      cases joint <;> rfl
  have hl : isLifetime (.punct c joint e :: ts) = false := by
    obtain rfl | ⟨rfl, -⟩ := hc <;> exact isLifetime_of_ne (by decide) joint e ts
  unfold type
  rw [ahead_bind]
  change (ahead (isGroup .parenthesis) >>= _) _ = none
  rw [ahead_bind_of_not rfl, ahead_bind_of_not rfl, ahead_bind_of_not hp, ahead_bind_of_not rfl, ahead_bind_of_not rfl]
  have hr : (ahead isLifetime >>= fun there => require there >>= fun _ => objectType g true) ⟨.punct c joint e :: ts, w, f⟩ = none := by
    rw [ahead_bind, hl]
    rfl
  obtain rfl | ⟨rfl, -⟩ := hc <;> exact hr

theorem exists_of_mark_colon {s t : ReaderState} {u : Unit} (h : mark ":" s = some (u, t)) :
    ∃ joint e, s.rest = .punct ':' joint e :: t.rest := by
  obtain ⟨marks, rest, hm, rfl⟩ := mark_eq_some_iff.mp h
  obtain ⟨_ | ⟨t, ts⟩, written, found⟩ := s
  · cases hm
  · cases t with
    | punct c joint e =>
      change (if ':' = c then some ([Token.punct ':' false e], ts) else none) = _ at hm
      split at hm
      · rename_i hc
        subst hc
        cases hm
        exact ⟨joint, e, rfl⟩
      · cases hm
    | _ => cases hm

theorem pattern_mut_self {e₀ e e' : Extent} {joint : Bool} {ts : List Token} {w : Array Token} {f : Array Declaration} :
    pattern g ⟨.ident false "mut" e₀ :: .ident false "self" e :: .punct ':' joint e' :: ts, w, f⟩ =
      some (.other, ⟨.punct ':' joint e' :: ts, (w.push (.ident false "mut" e₀)).push (.ident false "self" e), f⟩) := by
  cases joint <;> rfl

theorem pattern_self {e e' : Extent} {joint : Bool} {ts : List Token} {w : Array Token} {f : Array Declaration}
    (h : isMark "::" (.punct ':' joint e' :: ts) = false) : pattern g ⟨.ident false "self" e :: .punct ':' joint e' :: ts, w, f⟩ =
      some (.other, ⟨.punct ':' joint e' :: ts, w.push (.ident false "self" e), f⟩) := by
  unfold pattern
  refine (ahead_bind_of_not ?_).trans ?_
  · dsimp only [skip]
    rw [h]
    rfl
  · cases joint <;> rfl

theorem pattern_self_colons {e e₁ e₂ e₃ : Extent} {joint : Bool} {ts : List Token} {w : Array Token} {f : Array Declaration} :
    pattern g ⟨.ident false "self" e :: .punct ':' true e₁ :: .punct ':' true e₂ :: .punct ':' joint e₃ :: ts, w, f⟩ = none := by
  cases joint <;> rfl

theorem exists_of_colons {joint : Bool} {e : Extent} {ts : List Token} (h : isMark "::" (.punct ':' joint e :: ts)) :
    joint ∧ ∃ joint' e' us, ts = .punct ':' joint' e' :: us := by
  cases joint with
  | false => cases h
  | true =>
    obtain _ | ⟨t, us⟩ := ts
    · cases h
    · cases t with
      | punct c joint' e' =>
        have hc : (decide (':' = ':') && decide (':' = c)) = true := h
        obtain rfl : ':' = c := of_decide_eq_true (Bool.and_eq_true_iff.mp hc).2
        exact ⟨rfl, joint', e', us, rfl⟩
      | _ => cases h

/-- As a pattern, a receiver with a type ends before its colon, unless two more colons stand behind that. -/
theorem pattern_of_receiver {s t u v : ReaderState} {a : PatternShape}
    (hs : (word? "mut" >>= fun _ => word "self") s = some ((), t)) (hc : mark ":" t = some ((), u))
    (hp : pattern g s = some (a, v)) : v = t ∨ ∃ joint e ts, u.rest = .punct ':' joint e :: ts ∧ isMark "::" u.rest = false := by
  obtain ⟨mutable, s₁, hm, hw⟩ := bind_eq_some_iff.mp hs
  obtain ⟨e, rest, hr, rfl⟩ := exists_of_word hw
  obtain ⟨joint, e', rfl⟩ := exists_of_mark_colon hc
  generalize hu : u.rest = ts at *
  obtain hm | rfl := of_word? hm
  · obtain ⟨e₀, rest, hs₀, rfl⟩ := exists_of_word hm
    obtain rfl : rest = .ident false "self" e :: .punct ':' joint e' :: ts := hr
    obtain ⟨_, w, f⟩ := s
    cases hs₀
    cases (pattern_mut_self g).symm.trans hp
    exact .inl rfl
  · obtain ⟨_, w, f⟩ := s₁
    obtain rfl : _ = _ := hr
    cases hm : isMark "::" (.punct ':' joint e' :: ts) with
    | false =>
      cases (pattern_self g hm).symm.trans hp
      exact .inl rfl
    | true =>
      obtain ⟨rfl, joint', e₂, us, rfl⟩ := exists_of_colons hm
      refine .inr ⟨joint', e₂, us, rfl, ?_⟩
      by_contra hm
      rw [Bool.not_eq_false] at hm
      obtain ⟨rfl, joint₃, e₃, vs, rfl⟩ := exists_of_colons hm
      cases (pattern_self_colons g).symm.trans hp

/-- A receiver that only deeper productions read has a type that only they read. -/
theorem exists_of_receiver {g g' : Grammar} {s : ReaderState} (h : receiver g s = none) (h' : receiver g' s ≠ none) :
    ∃ t u, (word? "mut" >>= fun _ => word "self") s = some ((), t) ∧ mark ":" t = some ((), u) ∧
      g (.type true) u = none ∧ g' (.type true) u ≠ none := by
  obtain ⟨r, hr⟩ := Option.ne_none_iff_exists'.mp h'
  unfold receiver at h hr
  obtain ⟨borrowed, s₁, hb, hr₁⟩ := bind_eq_some_iff.mp hr
  rw [bind_of_eq_some hb] at h
  obtain ⟨rfl, -⟩ | ⟨rfl, rfl⟩ := of_mark? hb
  · cases h.symm.trans hr₁
  · obtain ⟨mutable, s₂, hm, hr₂⟩ := bind_eq_some_iff.mp hr₁
    rw [if_neg Bool.false_ne_true, bind_of_eq_some hm] at h
    obtain ⟨_, s₃, hs, hr₃⟩ := bind_eq_some_iff.mp hr₂
    rw [bind_of_eq_some hs] at h
    obtain ⟨typed, s₄, hc, hr₄⟩ := bind_eq_some_iff.mp hr₃
    rw [bind_of_eq_some hc] at h
    obtain ⟨rfl, hcolon⟩ | ⟨rfl, rfl⟩ := of_mark? hc
    · obtain ⟨shape, s₅, ht, -⟩ := bind_eq_some_iff.mp hr₄
      refine ⟨s₃, s₄, bind_eq_some_iff.mpr ⟨mutable, s₂, hm, hs⟩, hcolon, ?_, Option.ne_none_iff_exists'.mpr ⟨_, ht⟩⟩
      cases hn : g (.type true) s₄ with
      | none => rfl
      | some =>
        rw [if_pos rfl, bind_of_eq_some hn] at h
        cases h
    · cases h.symm.trans hr₄

end

variable {q : Sequel} {g g' : Grammar} [h : Grows g g']

theorem not_isName_of_receiver {s t : ReaderState} (hs : (word? "mut" >>= fun _ => word "self") s = some ((), t)) :
    isName s.rest = false := by
  obtain ⟨mutable, s₁, hm, hw⟩ := bind_eq_some_iff.mp hs
  obtain ⟨e, rest, hr, -⟩ := exists_of_word hw
  obtain hm | rfl := of_word? hm
  · obtain ⟨e₀, rest, hs₀, -⟩ := exists_of_word hm
    rw [hs₀]
    rfl
  · rw [hr]
    rfl

/-- No type stands behind a receiver's colon where a parameter of another kind ends at it. -/
theorem not_type_of_points {s : ReaderState} (hp : isMark "..." s.rest) : type g true s = none := by
  obtain ⟨_ | ⟨t, ts⟩, w, f⟩ := s
  · cases hp
  · cases t with
    | punct c joint e =>
      have hc : '.' = c := by
        cases joint with
        | false => cases hp
        | true =>
          have hp : (decide ('.' = c) && marks ['.', '.'] ts) = true := hp
          exact of_decide_eq_true (Bool.and_eq_true_iff.mp hp).1
      exact type_eq_none g (.inl hc.symm)
    | _ => cases hp

/-- What only deeper productions read as a receiver is no parameter of another kind. -/
theorem typed_eq_none {β : Type} {s : ReaderState} {kp ks : Reader β} {k : Reader β} (hr : receiver g s = none)
    (hr' : receiver g' s ≠ none) :
    (do
      let named ← ahead isName
      let generic ← ahead2 (isMark "<")
      if (named && generic) = true then kp
      else do
        let _ ← g .pattern
        mark ":"
        let dots ← ahead (isMark "...")
        if dots = true then ks
        else do
          let _ ← g (.type true)
          k) s = none := by
  obtain ⟨t, u, hs, hc, ht, ht'⟩ := exists_of_receiver hr hr'
  obtain ⟨r, ht'⟩ := Option.ne_none_iff_exists'.mp ht'
  obtain ⟨g₁, ht'⟩ := h.type ht'
  rw [ahead_bind, not_isName_of_receiver hs, ahead2, ahead_bind, Bool.false_and, if_neg Bool.false_ne_true]
  cases hp : g .pattern s with
  | none => exact bind_of_eq_none hp
  | some r =>
    rw [bind_of_eq_some hp]
    obtain ⟨g₀, hp⟩ := h.pattern hp
    obtain rfl | ⟨joint, e, ts, hu, hm⟩ := pattern_of_receiver g₀ hs hc hp
    · rw [bind_of_eq_some hc, ahead_bind, if_neg]
      · exact bind_of_eq_none ht
      · intro hd
        cases (not_type_of_points hd).symm.trans ht'
    · obtain ⟨_, w, f⟩ := u
      cases hu
      cases (type_eq_none g₁ (.inr ⟨rfl, hm⟩)).symm.trans ht'

/-! ### Parameters and signatures -/

instance : Extends nothing (receiver g) (receiver g') := by
  unfold receiver
  infer_instance

instance : Extends nothing finalDots finalDots := by
  unfold finalDots
  infer_instance

instance : Extends nothing (parameters g) (parameters g') := by
  unfold parameters
  refine .bind (.iterate (fun first => .bind inferInstance fun _ => .ite inferInstance <| .bind inferInstance fun _ =>
    .bind inferInstance fun _ => .ite inferInstance (.attempt_bind inferInstance (fun self? => ?_) fun s r _ hn hs => ?_)) _) inferInstance
  · infer_instance
  · rw [before_nothing]
    by_contra hr
    cases (typed_eq_none hn hr).symm.trans hs

/-! ### Visibility and declarations -/

/-- The sequel is not what a visibility goes on with. -/
instance [Quiet q] : Extends q visibility visibility := by
  unfold visibility
  refine .bind inferInstance fun there => .ite inferInstance ?_
  extract_lets behind
  have hscope {q : Sequel} [Quiet q] (content : List Token) : Extends q
      (if (isWord "crate" content || isWord "self" content || isWord "super" content) = true then
        if content.length = 1 then anyToken >>= fun _ => behind () else behind ()
      else if isWord "in" content = true then
        (parenthesized do
          word "in"
          let _ ← modPath) >>= behind
      else behind ())
      (if (isWord "crate" content || isWord "self" content || isWord "super" content) = true then
        if content.length = 1 then anyToken >>= fun _ => behind () else behind ()
      else if isWord "in" content = true then
        (parenthesized do
          word "in"
          let _ ← modPath) >>= behind
      else behind ()) := inferInstance
  refine .get_bind_quiet fun {q} hq s => ?_
  obtain ⟨_ | ⟨t, ts⟩, written, found⟩ := s
  · obtain rfl | ⟨joint, e, content, e', ts, rfl⟩ := hq.cases
    · exact inferInstanceAs (Extends nothing (pure true) (pure true))
    · exact inferInstanceAs (Extends _ (pure true) (pure true))
  · cases t with
    | group delimiter content e =>
      cases delimiter with
      | parenthesis => exact hscope content
      | _ => exact inferInstanceAs (Extends q (pure true) (pure true))
    | _ => exact inferInstanceAs (Extends q (pure true) (pure true))

theorem recorded_before {s t : ReaderState} {outer : List Attribute × List Declaration} (parts? : Option Parts) :
    recorded (s.before q) outer (t.before q) parts? = (recorded s outer t parts?).before q := by
  cases parts? with
  | some => rfl
  | none => simp only [recorded, ReaderState.before, take_before]

instance [Quiet q] {rest rest' : Reader (Option Parts)} [hr : Extends q rest rest'] :
    Extends q (declaring g rest) (declaring g' rest') where
  suffix h := by
    obtain ⟨outer, s₁, parts?, s₂, ho, hp, rfl⟩ := declaring_eq_some_iff.mp h
    rw [recorded_rest]
    exact (hr.suffix hp).trans ((inferInstance : Extends q (collecting (outerAttributes g)) (collecting (outerAttributes g'))).suffix ho)
  run h hf := by
    obtain ⟨outer, s₁, parts?, s₂, ho, hp, rfl⟩ := declaring_eq_some_iff.mp h
    have hattributes : Extends q (collecting (outerAttributes g)) (collecting (outerAttributes g')) := inferInstance
    rw [recorded_rest] at hf
    rw [← recorded_before parts?]
    exact declaring_eq_some_iff.mpr ⟨outer, _, parts?, _, hattributes.run ho (hf.of_suffix (hr.suffix hp)), hr.run hp hf, rfl⟩

/-! ### Statements -/

section
variable {α β : Type} {r r' : ReaderState → Reader (Option α)} {k k' : ReaderState → Option α → Reader β} {f : α → β} {b : β}

/-- What is read a second time, as it stands, where nothing came of it. -/
structure Again (r : ReaderState → Reader (Option α)) (k : ReaderState → Option α → Reader β) (f : α → β) (b : β) : Prop where
  of_some : ∀ start a, k start (some a) = pure (f a)
  of_none : ∀ start, k start none = set start >>= fun _ => verbatim (r start) >>= fun _ => pure b

theorem Again.eq_some_iff (ha : Again r k f b) {c : β} {s s' : ReaderState} :
    (get >>= fun start => r start >>= k start) s = some (c, s') ↔
      (∃ a, r s s = some (some a, s') ∧ c = f a) ∨ ∃ t, r s s = some (none, t) ∧ verbatim (r s) s = some (none, s') ∧ c = b := by
  constructor
  · intro h
    rw [get_bind] at h
    obtain ⟨a?, t, hr, hc⟩ := bind_eq_some_iff.mp h
    cases a? with
    | some a =>
      rw [ha.of_some] at hc
      cases hc
      exact .inl ⟨a, hr, rfl⟩
    | none =>
      rw [ha.of_none] at hc
      have hc : (verbatim (r s) >>= fun _ => pure b) s = some (c, s') := hc
      obtain ⟨a?, _, hv, hs⟩ := bind_eq_some_iff.mp hc
      cases hs
      obtain ⟨_, hr', -⟩ := verbatim_eq_some_iff.mp hv
      cases hr.symm.trans hr'
      exact .inr ⟨t, hr, hv, rfl⟩
  · rintro (⟨a, hr, rfl⟩ | ⟨t, hr, hv, rfl⟩)
    · exact bind_eq_some_iff.mpr ⟨s, s, rfl, bind_eq_some_iff.mpr ⟨some a, s', hr, by rw [ha.of_some]; rfl⟩⟩
    · refine bind_eq_some_iff.mpr ⟨s, s, rfl, bind_eq_some_iff.mpr ⟨none, t, hr, ?_⟩⟩
      rw [ha.of_none]
      exact bind_eq_some_iff.mpr ⟨(), s, rfl, bind_eq_some_iff.mpr ⟨none, s', hv, rfl⟩⟩

theorem Again.extends (ha : Again r k f b) (ha' : Again r' k' f b) (hr : Extends q (get >>= r) (get >>= r')) :
    Extends q (get >>= fun start => r start >>= k start) (get >>= fun start => r' start >>= k' start) where
  suffix h := by
    obtain ⟨a, hs, -⟩ | ⟨t, hs, hv, -⟩ := ha.eq_some_iff.mp h
    · exact hr.suffix hs
    · exact (inferInstance : Extends q (verbatim (get >>= r)) (verbatim (get >>= r'))).suffix hv
  run h hf := by
    obtain ⟨a, hs, rfl⟩ | ⟨t, hs, hv, rfl⟩ := ha.eq_some_iff.mp h
    · exact ha'.eq_some_iff.mpr (.inl ⟨a, hr.run hs hf, rfl⟩)
    · have hv' := (inferInstance : Extends q (verbatim (get >>= r)) (verbatim (get >>= r'))).run hv hf
      obtain ⟨t', hs', rfl⟩ := verbatim_eq_some_iff.mp hv
      exact ha'.eq_some_iff.mpr (.inr ⟨t'.before q, hr.run hs' hf, hv', rfl⟩)

end

section
variable [Quiet q]

/-- A bound that is read a second time ends where it ended at first. -/
instance (capture const : Bool) : Extends q (bound g capture const) (bound g' capture const) := by
  unfold bound
  refine .bind inferInstance fun _ => .ite inferInstance (.bind inferInstance fun _ => .ite inferInstance ?_)
  dsimp only
  refine Again.extends (f := BoundShape.trait) (b := BoundShape.verbatim) ⟨fun _ _ => rfl, fun _ => rfl⟩
    ⟨fun _ _ => rfl, fun _ => rfl⟩ ?_
  infer_instance

instance (root : Bool) : Extends q (useTree g root) (useTree g' root) := by
  unfold useTree
  refine .bind inferInstance fun _ => .ite inferInstance (.bind inferInstance fun _ => .ite inferInstance ?_)
  infer_instance

instance : Extends q (early g) (early g') := by
  unfold early
  infer_instance

end

instance : Extends nothing endsWithBrace endsWithBrace := by
  unfold endsWithBrace
  infer_instance

instance : Extends nothing (localBinding g) (localBinding g') := by
  unfold localBinding
  infer_instance

/-- Readers behind what a start leaves, which may go back to it. -/
structure ExtendsBehind (start : ReaderState) {α : Type} (p p' : Reader α) : Prop where
  suffix : ∀ {s a s'}, s.rest <:+ start.rest → p s = some (a, s') → s'.rest <:+ start.rest
  run : ∀ {s r}, p s = some r → p' s = some r

namespace ExtendsBehind
variable {start : ReaderState} {α β : Type} {p p' : Reader α}

theorem of_extends (hp : Extends nothing p p') : ExtendsBehind start p p' where
  suffix hs h := (hp.suffix h).trans hs
  run h := by
    have hr := hp.run h trivial
    rw [before_nothing, before_nothing] at hr
    exact hr

theorem resume (hp : Extends nothing p p') : ExtendsBehind start (set start >>= fun _ => p) (set start >>= fun _ => p') where
  suffix _ h := hp.suffix (s := start) h
  run h := by
    have hb : ExtendsBehind start p p' := of_extends hp
    exact hb.run (s := start) h

theorem bind {f f' : α → Reader β} (hp : ExtendsBehind start p p') (hf : ∀ a, ExtendsBehind start (f a) (f' a)) :
    ExtendsBehind start (p >>= f) (p' >>= f') where
  suffix hs h := by
    obtain ⟨a, t, ha, hb⟩ := bind_eq_some_iff.mp h
    exact (hf a).suffix (hp.suffix hs ha) hb
  run h := by
    obtain ⟨a, t, ha, hb⟩ := bind_eq_some_iff.mp h
    exact bind_eq_some_iff.mpr ⟨a, t, hp.run ha, (hf a).run hb⟩

theorem get_bind {f f' : ReaderState → Reader α} (hf : ∀ s, ExtendsBehind start (f s) (f' s)) :
    ExtendsBehind start (get >>= f) (get >>= f') where
  suffix := fun {s _ _} hs h => (hf s).suffix hs h
  run := fun {s _} h => (hf s).run h

theorem ite {c : Prop} [Decidable c] {r r' : Reader α} (hp : ExtendsBehind start p p') (hr : ExtendsBehind start r r') :
    ExtendsBehind start (if c then p else r) (if c then p' else r') := by
  split
  · exact hp
  · exact hr

theorem extends_of {f f' : ReaderState → Reader α} (hf : ∀ start, ExtendsBehind start (f start) (f' start)) :
    Extends nothing (get >>= f) (get >>= f') where
  suffix := fun {s _ _} h => (hf s).suffix List.suffix_rfl h
  run := fun {s _ _} h _ => by
    rw [before_nothing, before_nothing]
    exact (hf s).run h

end ExtendsBehind

instance : Extends nothing (statement g) (statement g') := by
  unfold statement
  refine ExtendsBehind.extends_of fun start => .bind (.of_extends inferInstance) fun _ => .get_bind fun s => .ite ?_ <|
    .ite ?_ <| .ite ?_ ?_
  · exact .of_extends inferInstance
  · exact .of_extends inferInstance
  · exact .resume inferInstance
  · exact .of_extends inferInstance

instance : Extends nothing (statements g) (statements g') := by
  unfold statements
  infer_instance

/-! ### Signatures and fields -/

section
variable [Quiet q]

instance (safe : Bool) : Extends q (signature g safe) (signature g' safe) := by
  unfold signature
  infer_instance

instance : Extends q (functionBody g) (functionBody g') := by
  unfold functionBody
  infer_instance

end

instance {name name' : Nat → Reader String} [∀ n, Extends nothing (name n) (name' n)] :
    Extends nothing (declaringField g name) (declaringField g' name') := by
  unfold declaringField
  infer_instance

instance : Extends nothing (namedField g) (namedField g') := by
  unfold namedField
  infer_instance

instance : Extends nothing (tupleField g) (tupleField g') := by
  unfold tupleField
  infer_instance

section
variable [Quiet q]

instance : Extends q (namedFields g) (namedFields g') := by
  unfold namedFields
  infer_instance

instance : Extends q (tupleFields g) (tupleFields g') := by
  unfold tupleFields
  infer_instance

end

end GeneratorHost.Grammar
