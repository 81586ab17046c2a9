import GeneratorHost.Proofs.Grammar.Nested

/-! Items in front of others. An item ends with a semicolon or with braces, so nothing behind it is looked at. -/
namespace GeneratorHost

namespace Reader
open Sequel

variable {q : Sequel} {ts us : List Token}

namespace Sequel

/-- Whether a sequel joins no mark in front of it. -/
def Parted : Sequel → List Token → Prop
  | items _, ts => ∀ t ∈ ts.getLast?, t.isJoint = false
  | _, _ => True

/-- No token is left, or they may have the sequel behind them. -/
def Closed (q : Sequel) (ts : List Token) : Prop := ts ≠ [] → q.Fits ts

theorem Parted.of_suffix (h : q.Parted ts) (hs : us <:+ ts) : q.Parted us := by
  cases q with
  | items more =>
    obtain ⟨front, rfl⟩ := hs
    cases us with
    | nil =>
      intro _ ht
      cases ht
    | cons u us =>
      rw [Parted, List.getLast?_append_of_ne_nil front (List.cons_ne_nil u us)] at h
      exact h
  | _ => trivial

theorem Fits.drop (h : q.Fits ts) (hs : us <:+ ts) (hn : us ≠ []) : q.Fits us := by
  cases q with
  | items => exact EndsItem.drop h hs hn
  | _ => trivial

theorem Closed.fits (h : q.Closed us) (hs : us <:+ ts) (hn : us = [] → q.Fits ts) : q.Fits ts := by
  by_cases hu : us = []
  · exact hn hu
  · exact (h hu).of_suffix hs

theorem Closed.fits_cons {t : Token} (h : q.Closed ts) (hp : q.Parted (t :: ts)) (ht : t.endsItem) : q.Fits (t :: ts) := by
  refine h.fits (List.suffix_cons t ts) ?_
  rintro rfl
  cases q with
  | items => exact ⟨t, rfl, ht, hp t rfl⟩
  | _ => trivial

end Sequel

/-- A reader that goes to the end of an item reads it in front of a sequel as another reader does. -/
class Finishes (q : Sequel) {α : Type} (p p' : Reader α) : Prop where
  suffix : ∀ {s a s'}, p s = some (a, s') → s'.rest <:+ s.rest
  ends : ∀ {s a s'}, p s = some (a, s') → q.Parted s.rest → q.Closed s'.rest → q.Fits s.rest
  run : ∀ {s a s'}, p s = some (a, s') → q.Parted s.rest → q.Closed s'.rest → p' (s.before q) = some (a, s'.before q)

theorem Extends.of_finishes {α : Type} {p p' : Reader α} (h : Finishes nothing p p') : Extends nothing p p' where
  suffix := h.suffix
  run hr _ := h.run hr trivial fun _ => trivial

/-- Tokens that no test tells apart which does not see what stands behind an item. -/
def Alike (q : Sequel) (ts ts' : List Token) : Prop := ∀ test, [Steady q test] → test ts' = test ts

theorem Alike.refl (q : Sequel) (ts : List Token) : Alike q ts ts := fun _ _ => rfl

theorem alike_append (h : q.Fits ts) : Alike q ts (ts ++ q.tokens) := fun _ ht => ht.eq ts h

/-- A reader that reads nothing. -/
class Still {α : Type} (p : Reader α) : Prop where
  eq : ∀ {s a s'}, p s = some (a, s') → s' = s ∧ ∀ t, p t = some (a, t)

variable {α β : Type} {p p' r r' : Reader α}

instance (a : α) : Still (pure a) where
  eq h := by
    cases h
    exact ⟨rfl, fun _ => rfl⟩

instance {c : Prop} [Decidable c] [hp : Still p] [hr : Still r] : Still (if c then p else r) := by
  split
  · exact hp
  · exact hr

namespace Finishes

theorem still {f : α → Reader β} (hp : Finishes q p p') (hf : ∀ a, Still (f a)) : Finishes q (p >>= f) (p' >>= f) where
  suffix h := by
    obtain ⟨a, t, ha, hb⟩ := bind_eq_some_iff.mp h
    obtain ⟨rfl, -⟩ := (hf a).eq hb
    exact hp.suffix ha
  ends h := by
    obtain ⟨a, t, ha, hb⟩ := bind_eq_some_iff.mp h
    obtain ⟨rfl, -⟩ := (hf a).eq hb
    exact hp.ends ha
  run h hu hc := by
    obtain ⟨a, t, ha, hb⟩ := bind_eq_some_iff.mp h
    obtain ⟨rfl, hstill⟩ := (hf a).eq hb
    exact bind_eq_some_iff.mpr ⟨a, _, hp.run ha hu hc, hstill _⟩

theorem bind {f f' : α → Reader β} (hp : Extends q p p') (hf : ∀ a, Finishes q (f a) (f' a)) :
    Finishes q (p >>= f) (p' >>= f') where
  suffix h := by
    obtain ⟨a, t, ha, hb⟩ := bind_eq_some_iff.mp h
    exact ((hf a).suffix hb).trans (hp.suffix ha)
  ends h hu hc := by
    obtain ⟨a, t, ha, hb⟩ := bind_eq_some_iff.mp h
    exact ((hf a).ends hb (hu.of_suffix (hp.suffix ha)) hc).of_suffix (hp.suffix ha)
  run h hu hc := by
    obtain ⟨a, t, ha, hb⟩ := bind_eq_some_iff.mp h
    have hu := hu.of_suffix (hp.suffix ha)
    rw [bind_of_eq_some (hp.run ha ((hf a).ends hb hu hc))]
    exact (hf a).run hb hu hc

theorem ite {c : Prop} [Decidable c] (hp : Finishes q p p') (hr : Finishes q r r') :
    Finishes q (if c then p else r) (if c then p' else r') := by
  split
  · exact hp
  · exact hr

/-- A choice by tokens that look the same. -/
theorem choose {ts ts' : List Token} (hs : Alike q ts ts') (test : List Token → Bool) [Steady q test]
    (hp : Finishes q p p') (hr : Finishes q r r') :
    Finishes q (if test ts = true then p else r) (if test ts' = true then p' else r') := by
  rw [hs test]
  exact hp.ite hr

theorem required {ts ts' : List Token} (hs : Alike q ts ts') (test : List Token → Bool) [Steady q test]
    (hp : Finishes q p p') : Finishes q (require (test ts) >>= fun _ => p) (require (test ts') >>= fun _ => p') := by
  rw [hs test]
  exact .bind inferInstance fun _ => hp

/-- A reader that reads a token that ends an item, whatever stands behind. -/
theorem of_token (hp : Extends (any q.tokens) p p')
    (h : ∀ {s a s'}, p s = some (a, s') → ∃ t, s.rest = t :: s'.rest ∧ t.endsItem) : Finishes q p p' where
  suffix h := hp.suffix h
  ends hr hu hc := by
    obtain ⟨t, ht, he⟩ := h hr
    rw [ht] at hu ⊢
    exact hc.fits_cons hu he
  run hr _ _ := hp.run hr trivial

end Finishes

instance [hp : Finishes q p p'] {f : α → Reader β} [hf : ∀ a, Still (f a)] : Finishes q (p >>= f) (p' >>= f) :=
  hp.still hf

instance {f f' : α → Reader β} [hp : Extends q p p'] [hf : ∀ a, Finishes q (f a) (f' a)] :
    Finishes q (p >>= f) (p' >>= f') :=
  .bind hp hf

instance [hp : Finishes q p p'] (f : α → β) : Finishes q (f <$> p) (f <$> p') :=
  hp.still (f := fun a => pure (f a)) fun _ => inferInstance

instance {c : Prop} [Decidable c] [hp : Finishes q p p'] [hr : Finishes q r r'] :
    Finishes q (if c then p else r) (if c then p' else r') :=
  hp.ite hr

instance [Extends nothing p p'] : Finishes q (braced p) (braced p') := by
  refine .of_token inferInstance fun h => ?_
  obtain ⟨content, extent, rest, inside, hr, -, -, rfl⟩ := inGroup_eq_some_iff.mp h
  exact ⟨_, hr, rfl⟩

instance : Finishes q (mark ";") (mark ";") := by
  refine .of_token inferInstance fun {s _ _} h => ?_
  obtain ⟨marks, rest, hm, rfl⟩ := mark_eq_some_iff.mp h
  obtain ⟨_ | ⟨t, ts⟩, written, found⟩ := s
  · cases hm
  · cases t with
    | punct c joint e =>
      change (if ';' = c then some ([Token.punct ';' false e], ts) else none) = _ at hm
      split at hm
      · rename_i hc
        subst hc
        cases hm
        exact ⟨_, rfl, rfl⟩
      · cases hm
    | _ => cases hm

/-- A semicolon, or something else that ends an item. -/
instance [Quiet q] [hr : Still r] [hp : Finishes q p p'] : Finishes q (mark? ";" >>= fun there => if there = true then r else p)
    (mark? ";" >>= fun there => if there = true then r else p') where
  suffix h := by
    obtain ⟨there, t, hm, hr₁⟩ := bind_eq_some_iff.mp h
    obtain ⟨rfl, hs⟩ | ⟨rfl, rfl⟩ := of_mark? hm
    · obtain ⟨rfl, -⟩ := hr.eq hr₁
      exact (inferInstance : Finishes q (mark ";") (mark ";")).suffix hs
    · exact hp.suffix hr₁
  ends h hu hc := by
    obtain ⟨there, t, hm, hr₁⟩ := bind_eq_some_iff.mp h
    obtain ⟨rfl, hs⟩ | ⟨rfl, rfl⟩ := of_mark? hm
    · obtain ⟨rfl, -⟩ := hr.eq hr₁
      exact (inferInstance : Finishes q (mark ";") (mark ";")).ends hs hu hc
    · exact hp.ends hr₁ hu hc
  run := fun {s _ _} h hu hc => by
    obtain ⟨there, t, hm, hr₁⟩ := bind_eq_some_iff.mp h
    obtain ⟨rfl, hs⟩ | ⟨rfl, rfl⟩ := of_mark? hm
    · obtain ⟨rfl, hstill⟩ := hr.eq hr₁
      have hmark : Finishes q (mark ";") (mark ";") := inferInstance
      have he : isMark ";" (s.before q).rest = isMark ";" s.rest :=
        (inferInstance : Steady q (isMark ";")).eq s.rest (hmark.ends hs hu hc)
      refine bind_eq_some_iff.mpr ⟨true, _, mark?_eq_true_iff.mpr ⟨?_, hmark.run hs hu hc⟩, hstill _⟩
      rw [he]
      exact (mark?_eq_true_iff.mp hm).1
    · have hread : Extends q (mark? ";") (mark? ";") := inferInstance
      exact bind_eq_some_iff.mpr ⟨false, _, hread.run hm (hp.ends hr₁ hu hc), hp.run hr₁ hu hc⟩

instance [hp : Finishes q p p'] : Finishes q (collecting p) (collecting p') where
  suffix h := by
    obtain ⟨t, ht, -, rfl⟩ := collecting_eq_some_iff.mp h
    exact (hp.suffix ht :)
  ends h := by
    obtain ⟨t, ht, -, rfl⟩ := collecting_eq_some_iff.mp h
    exact (hp.ends ht :)
  run h hu hc := by
    obtain ⟨t, ht, hd, rfl⟩ := collecting_eq_some_iff.mp h
    exact collecting_eq_some_iff.mpr ⟨t.before q, hp.run ht hu hc, hd, rfl⟩

end Reader

namespace Grammar
open Reader Reader.Sequel

set_option synthInstance.maxSize 100000

variable {q : Sequel} {g g' : Grammar} [h : Grows g g']

/-! ### Functions told from their first words -/

/-- Tokens that end an item, and the same in front of others. -/
structure Ahead (more ts ts' : List Token) : Prop where
  ends : EndsItem ts
  eq : ts' = ts ++ more

namespace Ahead
variable {more ts ts' : List Token} {test : List Token → Bool}

theorem see (h : Ahead more ts ts') (test : List Token → Bool) [Steady (items more) test] : test ts' = test ts := by
  rw [h.eq]
  exact Steady.eq (q := items more) ts h.ends

/-- Behind a token that ends no item there is another one. -/
theorem drop (h : Ahead more ts ts') (ht : test ts) (hn : ∀ t us, t.endsItem → test (t :: us) = false) :
    Ahead more (ts.drop 1) (ts'.drop 1) := by
  obtain ⟨t, us, rfl⟩ := h.ends.exists_cons
  have he : t.endsItem = false := by
    by_contra he
    rw [Bool.not_eq_false] at he
    exact Bool.false_ne_true ((hn t us he).symm.trans ht)
  obtain ⟨u, us, rfl, he⟩ := h.ends.exists_cons_cons he
  obtain rfl := h.eq
  exact ⟨he, rfl⟩

theorem ite (h : Ahead more ts ts') (test : List Token → Bool) [Steady (items more) test] {us us' vs vs' : List Token}
    (ht : test ts → Ahead more us us') (hf : Ahead more vs vs') :
    Ahead more (if test ts then us else vs) (if test ts' then us' else vs') := by
  rw [h.see test]
  split
  · rename_i hc
    exact ht hc
  · exact hf

end Ahead

theorem isWord_eq_false_of_endsItem {word : String} (t : Token) (us : List Token) (h : t.endsItem) : isWord word (t :: us) = false := by
  cases t with
  | ident => cases h
  | _ => rfl

theorem isTextLiteral_eq_false_of_endsItem (t : Token) (us : List Token) (h : t.endsItem) : isTextLiteral (t :: us) = false := by
  cases t with
  | literal => cases h
  | _ => rfl

instance [hq : Quiet q] (safe : Bool) : Steady q (startsFunction safe) where
  eq ts he := by
    obtain rfl | ⟨joint, e, content, e', behind, rfl⟩ := hq.cases
    · exact congrArg (startsFunction safe) (List.append_nil ts)
    generalize hm : Token.punct '#' joint e :: .group .bracket content e' :: behind = more at *
    have hword {ts ts' : List Token} (h : Ahead more ts ts') (word : String) :
        Ahead more (if isWord word ts then ts.drop 1 else ts) (if isWord word ts' then ts'.drop 1 else ts') :=
      h.ite (isWord word) (fun hw => h.drop hw isWord_eq_false_of_endsItem) h
    have hmodified := hword (hword ⟨he, rfl⟩ "const") "async"
    have hsafe {ts ts' : List Token} (h : Ahead more ts ts') : Ahead more
        (if safe && isWord "safe" ts then ts.drop 1 else if isWord "unsafe" ts then ts.drop 1 else ts)
        (if safe && isWord "safe" ts' then ts'.drop 1 else if isWord "unsafe" ts' then ts'.drop 1 else ts') :=
      h.ite (fun ts => safe && isWord "safe" ts)
        (fun hw => h.drop (Bool.and_eq_true_iff.mp hw).2 isWord_eq_false_of_endsItem) (hword h "unsafe")
    have hbehind {ts ts' : List Token} (h : Ahead more ts ts') : Ahead more
        (if isWord "extern" ts then if isTextLiteral (ts.drop 1) then ts.drop 2 else ts.drop 1 else ts)
        (if isWord "extern" ts' then if isTextLiteral (ts'.drop 1) then ts'.drop 2 else ts'.drop 1 else ts') := by
      refine h.ite (isWord "extern") (fun hw => ?_) h
      have hd := h.drop hw isWord_eq_false_of_endsItem
      refine hd.ite isTextLiteral (fun ht => ?_) hd
      have hd := hd.drop ht isTextLiteral_eq_false_of_endsItem
      rwa [List.drop_drop, List.drop_drop] at hd
    exact (hbehind (hsafe hmodified)).see (isWord "fn")

/-! ### Macros -/

theorem anyGroup_eq_some_iff {s s' : ReaderState} {delimiter : Delimiter} {content : List Token} :
    anyGroup s = some ((delimiter, content), s') ↔
      ∃ e rest, s.rest = .group delimiter content e :: rest ∧ s' = { s with rest, written := s.written.push (.group delimiter content e) } := by
  unfold anyGroup
  constructor
  · intro h
    obtain ⟨t, _, ht, hr⟩ := bind_eq_some_iff.mp h
    cases t with
    | group d c e =>
      cases hr
      obtain ⟨rest, hr, rfl⟩ := anyToken_eq_some_iff.mp ht
      exact ⟨e, rest, hr, rfl⟩
    | _ => cases hr
  · rintro ⟨e, rest, hr, rfl⟩
    exact bind_eq_some_iff.mpr ⟨_, _, anyToken_eq_some_iff.mpr ⟨rest, hr, rfl⟩, rfl⟩

/-- Macro arguments end an item with their braces or with the semicolon behind them. -/
theorem macroArguments_finishes : Finishes q (anyGroup >>= fun group => endMacro group.1) (anyGroup >>= fun group => endMacro group.1) where
  suffix h := by
    obtain ⟨⟨delimiter, content⟩, t, hg, hm⟩ := bind_eq_some_iff.mp h
    refine List.IsSuffix.trans ?_ ((inferInstance : Extends nothing anyGroup anyGroup).suffix hg)
    unfold endMacro at hm
    split at hm
    · cases hm
      exact List.suffix_rfl
    · exact (inferInstance : Extends nothing (mark ";") (mark ";")).suffix hm
  ends h hu hc := by
    obtain ⟨⟨delimiter, content⟩, t, hg, hm⟩ := bind_eq_some_iff.mp h
    obtain ⟨e, rest, hr, rfl⟩ := anyGroup_eq_some_iff.mp hg
    rw [hr] at hu ⊢
    unfold endMacro at hm
    split at hm
    · rename_i hd
      subst hd
      cases hm
      exact hc.fits_cons hu rfl
    · have hs : Finishes q (mark ";") (mark ";") := inferInstance
      exact (hs.ends hm (hu.of_suffix (List.suffix_cons _ rest)) hc).of_suffix (List.suffix_cons _ rest)
  run h hu hc := by
    obtain ⟨⟨delimiter, content⟩, t, hg, hm⟩ := bind_eq_some_iff.mp h
    have hany : Extends (any q.tokens) anyGroup anyGroup := inferInstance
    refine bind_eq_some_iff.mpr ⟨(delimiter, content), _, hany.run hg trivial, ?_⟩
    unfold endMacro at hm ⊢
    split
    · rename_i hd
      rw [if_pos hd] at hm
      cases hm
      rfl
    · rename_i hd
      rw [if_neg hd] at hm
      exact (inferInstance : Extends (any q.tokens) (mark ";") (mark ";")).run hm trivial

theorem bracedGroup_eq_some_iff {s s' : ReaderState} {u : Unit} :
    (ahead (isGroup .brace) >>= fun there => require there >>= fun _ => anyGroup >>= fun _ => pure ()) s = some (u, s') ↔
      ∃ content e rest, s.rest = .group .brace content e :: rest ∧
        s' = { s with rest, written := s.written.push (.group .brace content e) } := by
  rw [ahead_bind]
  constructor
  · intro h
    obtain ⟨_, _, hr, hg⟩ := bind_eq_some_iff.mp h
    obtain ⟨hr, rfl⟩ := require_eq_some_iff.mp hr
    obtain ⟨⟨delimiter, content⟩, _, hg, hu⟩ := bind_eq_some_iff.mp hg
    cases hu
    obtain ⟨e, rest, hs, rfl⟩ := anyGroup_eq_some_iff.mp hg
    rw [hs] at hr
    obtain rfl : delimiter = .brace := of_decide_eq_true hr
    exact ⟨content, e, rest, hs, rfl⟩
  · rintro ⟨content, e, rest, hs, rfl⟩
    refine bind_eq_some_iff.mpr ⟨(), s, require_eq_some_iff.mpr ⟨by rw [hs]; rfl, rfl⟩, ?_⟩
    exact bind_eq_some_iff.mpr ⟨_, _, anyGroup_eq_some_iff.mpr ⟨e, rest, hs, rfl⟩, rfl⟩

theorem bracedGroup_finishes :
    Finishes q (ahead (isGroup .brace) >>= fun there => require there >>= fun _ => anyGroup >>= fun _ => pure ())
      (ahead (isGroup .brace) >>= fun there => require there >>= fun _ => anyGroup >>= fun _ => pure ()) where
  suffix h := by
    obtain ⟨content, e, rest, hs, rfl⟩ := bracedGroup_eq_some_iff.mp h
    rw [hs]
    exact List.suffix_cons _ rest
  ends h hu hc := by
    obtain ⟨content, e, rest, hs, rfl⟩ := bracedGroup_eq_some_iff.mp h
    rw [hs] at hu ⊢
    exact hc.fits_cons hu rfl
  run := fun {s _ _} h _ _ => by
    obtain ⟨content, e, rest, hs, rfl⟩ := bracedGroup_eq_some_iff.mp h
    refine bracedGroup_eq_some_iff.mpr ⟨content, e, rest ++ q.tokens, ?_, rfl⟩
    rw [ReaderState.before, hs]
    rfl

theorem nameIf_eq_none_of_before [hq : Quiet q] {test : List Token → Bool} [ht : Steady q test] {s : ReaderState} (hs : q.Fits s.rest)
    (hn : nameIf test s = none) : nameIf test (s.before q) = none := by
  obtain rfl | ⟨joint, e, content, e', behind, rfl⟩ := hq.cases
  · rw [before_nothing, hn]
  · obtain ⟨t, ts, hr⟩ := EndsItem.exists_cons hs
    unfold nameIf at hn ⊢
    rw [ahead_bind] at hn ⊢
    have htest : test (s.before (items (.punct '#' joint e :: .group .bracket content e' :: behind))).rest = test s.rest :=
      ht.eq s.rest hs
    rw [htest]
    cases htrue : test s.rest with
    | false => rfl
    | true =>
      rw [htrue] at hn
      obtain ⟨_, written, found⟩ := s
      cases hr
      cases t with
      | ident => cases hn
      | _ => rfl

instance [Quiet q] (test : List Token → Bool) [Steady q test] : Extends q (attempt (nameIf test)) (attempt (nameIf test)) :=
  .attempt_of inferInstance fun _ hs hn => nameIf_eq_none_of_before hs hn

/-! ### Declarations and members -/

instance [Quiet q] (mayDefault whereFirst whereLast : Bool) : Finishes q (typeDeclaration g mayDefault whereFirst whereLast)
    (typeDeclaration g' mayDefault whereFirst whereLast) := by
  unfold typeDeclaration
  infer_instance

instance [Quiet q] : Finishes q (constDeclaration g) (constDeclaration g') := by
  unfold constDeclaration
  infer_instance

instance : Extends nothing behindVisibility behindVisibility := by
  unfold behindVisibility
  refine .get_bind_of (fun s a s' h => ?_) fun s _ => ?_
  · cases hv : visibility s with
    | none =>
      rw [hv] at h
      cases h
    | some r =>
      rw [hv] at h
      cases h
      exact List.suffix_rfl
  · rw [before_nothing]
    cases visibility s <;> infer_instance

instance (mayDefault whereFirst whereLast : Bool) : Extends nothing (typeDeclaration g mayDefault whereFirst whereLast)
    (typeDeclaration g' mayDefault whereFirst whereLast) :=
  .of_finishes inferInstance

instance : Extends nothing (constDeclaration g) (constDeclaration g') := .of_finishes inferInstance

instance : Extends nothing memberMacro memberMacro := by
  unfold memberMacro endMacro
  infer_instance

instance : Extends nothing (traitFunction g) (traitFunction g') := by
  unfold traitFunction
  infer_instance

instance : Extends nothing (traitMember g) (traitMember g') := by
  unfold traitMember
  infer_instance

instance : Extends nothing (implFunction g) (implFunction g') := by
  unfold implFunction
  infer_instance

instance : Extends nothing (implMember g) (implMember g') := by
  unfold implMember
  infer_instance

instance : Extends nothing (foreignFunction g) (foreignFunction g') := by
  unfold foreignFunction
  infer_instance

instance : Extends nothing (foreignStatic g) (foreignStatic g') := by
  unfold foreignStatic
  infer_instance

instance : Extends nothing (foreignMember g) (foreignMember g') := by
  unfold foreignMember
  infer_instance

instance : Extends nothing (variantBody g) (variantBody g') := by
  unfold variantBody
  infer_instance

instance : Extends nothing (variantParts g) (variantParts g') := by
  unfold variantParts
  infer_instance

instance : Extends nothing (variant g) (variant g') := by
  unfold variant
  infer_instance

/-! ### Items -/

section
variable [Quiet q]

instance : Finishes q (useItem g) (useItem g') := by
  unfold useItem
  infer_instance

instance : Finishes q externCrate externCrate := by
  unfold externCrate
  infer_instance

instance : Finishes q macroItem macroItem := by
  unfold macroItem
  have := macroArguments_finishes (q := q)
  simp only [← bind_assoc]
  infer_instance

instance : Finishes q macroDefinition macroDefinition := by
  unfold macroDefinition
  have := bracedGroup_finishes (q := q)
  infer_instance

instance : Finishes q (namedFields g) (namedFields g') := by
  unfold namedFields
  infer_instance

instance : Finishes q (structBody g) (structBody g') := by
  unfold structBody
  infer_instance

instance : Finishes q (structItem g) (structItem g') := by
  unfold structItem
  infer_instance

instance : Finishes q (enumItem g) (enumItem g') := by
  unfold enumItem
  infer_instance

instance : Finishes q (unionItem g) (unionItem g') := by
  unfold unionItem
  infer_instance

instance {member member' : Reader Unit} [Extends nothing member member'] : Finishes q (members g member) (members g' member') := by
  unfold members
  infer_instance

instance (name : String) (found : List Declaration) : Finishes q (traitBody g name found) (traitBody g' name found) := by
  unfold traitBody
  infer_instance

instance : Extends q (aliasBounds g) (aliasBounds g') := by
  unfold aliasBounds
  infer_instance

instance (name : String) (found : List Declaration) : Finishes q (traitAliasBody g name found) (traitAliasBody g' name found) := by
  unfold traitAliasBody
  infer_instance

instance : Finishes q (traitItem g) (traitItem g') := by
  unfold traitItem
  infer_instance

instance : Finishes q (implItem g) (implItem g') := by
  unfold implItem
  infer_instance

instance : Finishes q (moduleItem g) (moduleItem g') := by
  unfold moduleItem
  infer_instance

instance : Finishes q (foreignModule g) (foreignModule g') := by
  unfold foreignModule
  infer_instance

instance : Finishes q (functionBody g) (functionBody g') := by
  unfold functionBody
  infer_instance

instance : Finishes q (functionItem g) (functionItem g') := by
  unfold functionItem
  infer_instance

instance : Finishes q (staticItem g) (staticItem g') := by
  unfold staticItem
  infer_instance

instance : Finishes q (constItem g) (constItem g') := by
  unfold constItem
  infer_instance

instance : Finishes q (typeItem g) (typeItem g') := by
  unfold typeItem
  infer_instance

instance : Steady q startsMacro := by
  unfold startsMacro
  infer_instance

theorem unsafeItem_finishes {ts ts' : List Token} (hs : Alike q ts ts') :
    Finishes q (unsafeItem g (skip ts)) (unsafeItem g' (skip ts')) :=
  .choose hs (fun ts => isWord "trait" (skip ts) || (isWord "auto" (skip ts) && isWord "trait" (skip (skip ts))))
    inferInstance <|
  .choose hs (fun ts => isWord "impl" (skip ts)) inferInstance <|
  .choose hs (fun ts => isWord "extern" (skip ts)) inferInstance <|
  .required hs (fun ts => isWord "mod" (skip ts)) inferInstance

theorem behindVisibility_eq_some_iff {s s' : ReaderState} {visible : Bool} {ts : List Token} :
    behindVisibility s = some ((visible, ts), s') ↔ s' = s ∧ ∃ next, visibility s = some (visible, next) ∧ ts = next.rest := by
  unfold behindVisibility
  rw [get_bind]
  cases visibility s with
  | none =>
    constructor
    · rintro ⟨⟩
    · rintro ⟨-, _, ⟨⟩, -⟩
  | some r =>
    constructor
    · rintro ⟨⟩
      exact ⟨rfl, r.2, rfl, rfl⟩
    · rintro ⟨rfl, _, ⟨⟩, rfl⟩
      rfl

/-- What is told from the tokens behind a visibility is told from them with others behind. -/
theorem behindVisibility_finishes {α : Type} {f f' : Bool × List Token → Reader α}
    (hk : ∀ visible ts ts', Alike q ts ts' → Finishes q (f (visible, ts)) (f' (visible, ts')))
    (hn : ∀ visible, f (visible, []) = failure) : Finishes q (behindVisibility >>= f) (behindVisibility >>= f') where
  suffix h := by
    obtain ⟨⟨visible, ts⟩, t, hb, hf⟩ := bind_eq_some_iff.mp h
    obtain ⟨rfl, -⟩ := behindVisibility_eq_some_iff.mp hb
    exact (hk visible ts ts (.refl q ts)).suffix hf
  ends h hu hc := by
    obtain ⟨⟨visible, ts⟩, t, hb, hf⟩ := bind_eq_some_iff.mp h
    obtain ⟨rfl, -⟩ := behindVisibility_eq_some_iff.mp hb
    exact (hk visible ts ts (.refl q ts)).ends hf hu hc
  run h hu hc := by
    obtain ⟨⟨visible, ts⟩, t, hb, hf⟩ := bind_eq_some_iff.mp h
    obtain ⟨rfl, next, hv, rfl⟩ := behindVisibility_eq_some_iff.mp hb
    have he := (hk visible next.rest next.rest (.refl q next.rest)).ends hf hu hc
    have hn : next.rest ≠ [] := by
      intro hr
      rw [hr, hn] at hf
      cases hf
    have hvisibility : Extends q visibility visibility := inferInstance
    have hnext := he.drop (hvisibility.suffix hv) hn
    refine bind_eq_some_iff.mpr ⟨(visible, next.rest ++ q.tokens), _,
      behindVisibility_eq_some_iff.mpr ⟨rfl, next.before q, hvisibility.run hv hnext, rfl⟩, ?_⟩
    exact (hk visible next.rest _ (alike_append hnext)).run hf hu hc

instance {p p' : Reader Unit} [Finishes q p p'] : Finishes q (keeping p) (keeping p') := by
  unfold keeping
  infer_instance

instance : Finishes q (itemRest g) (itemRest g') :=
  behindVisibility_finishes (fun visible ts ts' hs =>
    .choose hs (fun ts => isWord "fn" ts || startsFunction false ts) inferInstance <|
    .choose hs (fun ts => isWord "extern" ts)
      (.choose hs (fun ts => isWord "crate" (skip ts)) inferInstance <|
        .required hs (fun ts => isGroup .brace (skip ts) || (isTextLiteral (skip ts) && isGroup .brace (skip (skip ts))))
          inferInstance) <|
    .choose hs (fun ts => isWord "use" ts) inferInstance <|
    .choose hs (fun ts => isWord "static" ts) inferInstance <|
    .choose hs (fun ts => isWord "const" ts) inferInstance <|
    .choose hs (fun ts => isWord "unsafe" ts) (unsafeItem_finishes hs) <|
    .choose hs (fun ts => isWord "mod" ts) inferInstance <|
    .choose hs (fun ts => isWord "type" ts) inferInstance <|
    .choose hs (fun ts => isWord "struct" ts) inferInstance <|
    .choose hs (fun ts => isWord "enum" ts) inferInstance <|
    .choose hs (fun ts => isWord "union" ts && isName (skip ts)) inferInstance <|
    .choose hs (fun ts => isWord "trait" ts || (isWord "auto" ts && isWord "trait" (skip ts))) inferInstance <|
    .choose hs (fun ts => isWord "impl" ts || (isWord "default" ts && !isMark "!" (skip ts))) inferInstance <|
    .choose hs (fun ts => isWord "macro" ts) inferInstance <|
    .required hs (fun ts => !visible && startsMacro ts) inferInstance)
  fun visible => by cases visible <;> rfl

instance {rest rest' : Reader (Option Parts)} [hr : Finishes q rest rest'] :
    Finishes q (declaring g rest) (declaring g' rest') where
  suffix h := by
    obtain ⟨outer, s₁, parts?, s₂, ho, hp, rfl⟩ := declaring_eq_some_iff.mp h
    have hattributes : Extends q (collecting (outerAttributes g)) (collecting (outerAttributes g')) := inferInstance
    rw [recorded_rest]
    exact (hr.suffix hp).trans (hattributes.suffix ho)
  ends h hu hc := by
    obtain ⟨outer, s₁, parts?, s₂, ho, hp, rfl⟩ := declaring_eq_some_iff.mp h
    have hattributes : Extends q (collecting (outerAttributes g)) (collecting (outerAttributes g')) := inferInstance
    rw [recorded_rest] at hc
    exact (hr.ends hp (hu.of_suffix (hattributes.suffix ho)) hc).of_suffix (hattributes.suffix ho)
  run h hu hc := by
    obtain ⟨outer, s₁, parts?, s₂, ho, hp, rfl⟩ := declaring_eq_some_iff.mp h
    have hattributes : Extends q (collecting (outerAttributes g)) (collecting (outerAttributes g')) := inferInstance
    rw [recorded_rest] at hc
    have hu := hu.of_suffix (hattributes.suffix ho)
    rw [← recorded_before parts?]
    exact declaring_eq_some_iff.mpr ⟨outer, _, parts?, _, hattributes.run ho (hr.ends hp hu hc), hr.run hp hu hc, rfl⟩

instance : Finishes q (item g) (item g') := by
  unfold item
  infer_instance

end

/-! ### All productions -/

theorem exists_pattern {d : Nat} {s : ReaderState} {r : PatternShape × ReaderState} (h : grammar d .pattern s = some r) :
    ∃ g, pattern g s = some r := by
  cases d with
  | zero => cases h
  | succ d => exact ⟨grammar d, h⟩

theorem exists_type {d : Nat} {s : ReaderState} {r : TypeShape × ReaderState} (h : grammar d (.type true) s = some r) :
    ∃ g, type g true s = some r := by
  cases d with
  | zero => cases h
  | succ d => exact ⟨grammar d, h⟩

/-- A grammar grows with its depth. -/
theorem grows_grammar {d d' : Nat} (hd : d ≤ d') : Grows (grammar d) (grammar d') := by
  induction d generalizing d' with
  | zero =>
    exact ⟨fun _ _ _ _ => inferInstanceAs (Extends _ failure _), fun _ => inferInstanceAs (Extends _ failure _),
      exists_pattern, exists_type⟩
  | succ d ih =>
    obtain ⟨d', rfl⟩ : ∃ k, d' = k + 1 := ⟨d' - 1, by omega⟩
    have h := ih (Nat.le_of_succ_le_succ hd)
    have hinline (c : Category) (hc : c.isInline) (q : Sequel) [Quiet q] : Extends q (grammar (d + 1) c) (grammar (d' + 1) c) := by
      cases c with
      | expression structs => exact inferInstanceAs (Extends q (expression (grammar d) structs) (expression (grammar d') structs))
      | unary structs => exact inferInstanceAs (Extends q (unary (grammar d) structs) (unary (grammar d') structs))
      | operators structs left base =>
        exact inferInstanceAs (Extends q (operators (grammar d) structs left base) (operators (grammar d') structs left base))
      | type plus => exact inferInstanceAs (Extends q (type (grammar d) plus) (type (grammar d') plus))
      | pattern => exact inferInstanceAs (Extends q (pattern (grammar d)) (pattern (grammar d')))
      | bound capture const => exact inferInstanceAs (Extends q (bound (grammar d) capture const) (bound (grammar d') capture const))
      | useTree root => exact inferInstanceAs (Extends q (useTree (grammar d) root) (useTree (grammar d') root))
      | _ => cases hc
    refine ⟨hinline, fun c => ?_, exists_pattern, exists_type⟩
    cases c with
    | early => exact inferInstanceAs (Extends nothing (early (grammar d)) (early (grammar d')))
    | statements => exact inferInstanceAs (Extends nothing (statements (grammar d)) (statements (grammar d')))
    | item => exact .of_finishes (inferInstanceAs (Finishes nothing (item (grammar d)) (item (grammar d'))))
    | namedFields => exact inferInstanceAs (Extends nothing (namedFields (grammar d)) (namedFields (grammar d')))
    | _ => exact hinline _ rfl nothing

end Grammar
end GeneratorHost
