import GeneratorHost.Proofs.Grammar.Declarations
import GeneratorHost.Proofs.Grammar.Runs
import GeneratorHost.Proofs.Token.Rounds

/-! Tokens behind others. A test that looks no further than an item goes sees the same whatever stands behind it. -/
namespace GeneratorHost

/-! ### Ends of items -/

/-- A token that an item can end with. -/
def Token.endsItem : Token → Bool
  | .punct c _ _ => c = ';'
  | .group delimiter _ _ => delimiter = .brace
  | _ => false

/-- Tokens whose last one can end an item and joins no mark behind it. -/
def EndsItem (ts : List Token) : Prop := ∃ t ∈ ts.getLast?, t.endsItem ∧ t.isJoint = false

namespace EndsItem
variable {ts us : List Token} {t : Token}

theorem of_suffix (h : EndsItem us) (hs : us <:+ ts) : EndsItem ts := by
  obtain ⟨t, ht, he⟩ := h
  obtain ⟨front, rfl⟩ := hs
  exact ⟨t, by rw [List.getLast?_append, ht]; rfl, he⟩

theorem drop (h : EndsItem ts) (hs : us <:+ ts) (hn : us ≠ []) : EndsItem us := by
  obtain ⟨t, ht, he⟩ := h
  obtain ⟨front, rfl⟩ := hs
  rw [List.getLast?_append_of_ne_nil front hn] at ht
  exact ⟨t, ht, he⟩

theorem of_cons (h : EndsItem (t :: ts)) (hn : ts ≠ []) : EndsItem ts := h.drop (List.suffix_cons t ts) hn

theorem singleton (h : EndsItem [t]) : t.endsItem ∧ t.isJoint = false := by
  obtain ⟨_, ⟨⟩, he⟩ := h
  exact he

theorem exists_cons (h : EndsItem ts) : ∃ t us, ts = t :: us := by
  cases ts with
  | nil =>
    obtain ⟨_, ⟨⟩, -⟩ := h
  | cons t us => exact ⟨t, us, rfl⟩

/-- A token that can end no item has another one behind it. -/
theorem exists_cons_cons (h : EndsItem (t :: ts)) (ht : t.endsItem = false) : ∃ u us, ts = u :: us ∧ EndsItem (u :: us) := by
  cases ts with
  | nil => exact absurd h.singleton.1 (ht ▸ Bool.false_ne_true)
  | cons u us => exact ⟨u, us, rfl, h.of_cons (List.cons_ne_nil u us)⟩

end EndsItem

namespace Reader

/-- What stands behind the tokens that are read. -/
inductive Sequel where
  | nothing
  /-- Tokens behind an item. -/
  | items (tokens : List Token)
  /-- Tokens behind any others. -/
  | any (tokens : List Token)

namespace Sequel

def tokens : Sequel → List Token
  | nothing => []
  | items ts | any ts => ts

/-- Whether tokens may have the sequel behind them. -/
def Fits : Sequel → List Token → Prop
  | items _, ts => EndsItem ts
  | _, _ => True

theorem Fits.of_suffix {q : Sequel} {ts us : List Token} (h : q.Fits us) (hs : us <:+ ts) : q.Fits ts := by
  cases q with
  | items => exact EndsItem.of_suffix h hs
  | _ => trivial

/-- There is nothing behind, or items that begin with an attribute stand behind an item. -/
class Quiet (q : Sequel) : Prop where
  cases : q = nothing ∨
    ∃ joint e content e' behind, q = items (.punct '#' joint e :: .group .bracket content e' :: behind)

instance : Quiet nothing := ⟨.inl rfl⟩

end Sequel

open Sequel

variable {q : Sequel} {ts : List Token} {test test' : List Token → Bool}

/-- A test that does not see what stands behind. -/
class Steady (q : Sequel) (test : List Token → Bool) : Prop where
  eq : ∀ ts, q.Fits ts → test (ts ++ q.tokens) = test ts

/-- A test that does not even see it behind the next tokens. -/
class Blind (q : Sequel) (test : List Token → Bool) : Prop extends Steady q test where
  first : test q.tokens = test []
  second : test (skip q.tokens) = test []

instance : Blind nothing test where
  eq ts _ := congrArg test (List.append_nil ts)
  first := rfl
  second := rfl

/-! ### Tests of one token, and of marks -/

section
variable [hq : Quiet q]

theorem Steady.of_ends (h : ∀ ts more, EndsItem ts → test (ts ++ more) = test ts) : Steady q test where
  eq ts hf := by
    obtain rfl | ⟨joint, e, content, e', behind, rfl⟩ := hq.cases
    · exact congrArg test (List.append_nil ts)
    · exact h ts _ hf

theorem Blind.of_ends (h : ∀ ts more, EndsItem ts → test (ts ++ more) = test ts)
    (hm : ∀ joint e content e' behind, test (.punct '#' joint e :: .group .bracket content e' :: behind) = test [])
    (hg : ∀ content e behind, test (.group .bracket content e :: behind) = test []) : Blind q test where
  toSteady := .of_ends h
  first := by
    obtain rfl | ⟨joint, e, content, e', behind, rfl⟩ := hq.cases
    · rfl
    · exact hm joint e content e' behind
  second := by
    obtain rfl | ⟨joint, e, content, e', behind, rfl⟩ := hq.cases
    · rfl
    · exact hg content e' behind

theorem append_of_first (h : ∀ t ts ts', test (t :: ts) = test (t :: ts')) (ts more : List Token) (he : EndsItem ts) :
    test (ts ++ more) = test ts := by
  obtain ⟨t, us, rfl⟩ := he.exists_cons
  exact h t _ _

instance : Steady q List.isEmpty := .of_ends (append_of_first fun _ _ _ => rfl)

instance : Steady q isRaw := .of_ends (append_of_first fun t _ _ => by cases t <;> rfl)

instance : Steady q (isGroup .bracket) := .of_ends (append_of_first fun t _ _ => by cases t <;> rfl)

instance : Blind q (isGroup .brace) :=
  .of_ends (append_of_first fun t _ _ => by cases t <;> rfl) (fun _ _ _ _ _ => rfl) fun _ _ _ => rfl

instance : Blind q (isGroup .parenthesis) :=
  .of_ends (append_of_first fun t _ _ => by cases t <;> rfl) (fun _ _ _ _ _ => rfl) fun _ _ _ => rfl

instance (word : String) : Blind q (isWord word) :=
  .of_ends (append_of_first fun t _ _ => by
    cases t with
    | ident raw => cases raw <;> rfl
    | _ => rfl) (fun _ _ _ _ _ => rfl) fun _ _ _ => rfl

instance : Blind q isName :=
  .of_ends (append_of_first fun t _ _ => by cases t <;> rfl) (fun _ _ _ _ _ => rfl) fun _ _ _ => rfl

instance : Blind q isAnyName :=
  .of_ends (append_of_first fun t _ _ => by cases t <;> rfl) (fun _ _ _ _ _ => rfl) fun _ _ _ => rfl

instance : Blind q isTextLiteral :=
  .of_ends (append_of_first fun t _ _ => by cases t <;> rfl) (fun _ _ _ _ _ => rfl) fun _ _ _ => rfl

theorem isNumber_cons (t : Token) (ts ts' : List Token) : isNumber (t :: ts) = isNumber (t :: ts') := by cases t <;> rfl

theorem isLiteral_append (more : List Token) (h : EndsItem ts) : isLiteral (ts ++ more) = isLiteral ts := by
  obtain ⟨t, us, rfl⟩ := h.exists_cons
  cases t with
  | punct c joint e =>
    by_cases hc : c = '-'
    · subst hc
      obtain ⟨u, us, rfl, -⟩ := h.exists_cons_cons rfl
      exact isNumber_cons u _ _
    · simp [isLiteral, hc, isWord]
  | ident raw => cases raw <;> rfl
  | _ => rfl

instance : Blind q isLiteral :=
  .of_ends (fun _ more h => isLiteral_append more h) (fun _ _ _ _ _ => by simp [isLiteral, isWord]) fun _ _ _ => rfl

theorem isNumberOf_append (kind : Token.NumberKind) (more : List Token) (h : EndsItem ts) :
    isNumberOf kind (ts ++ more) = isNumberOf kind ts := by
  obtain ⟨t, us, rfl⟩ := h.exists_cons
  cases t with
  | punct c joint e =>
    by_cases hc : c = '-'
    · subst hc
      obtain ⟨u, us, rfl, -⟩ := h.exists_cons_cons rfl
      cases u <;> rfl
    · simp [isNumberOf, hc]
  | _ => rfl

instance (kind : Token.NumberKind) : Steady q (isNumberOf kind) := .of_ends fun _ more h => isNumberOf_append kind more h

theorem isLifetime_append (more : List Token) (h : EndsItem ts) : isLifetime (ts ++ more) = isLifetime ts := by
  obtain ⟨t, us, rfl⟩ := h.exists_cons
  cases t with
  | punct c joint e =>
    cases joint with
    | false => rfl
    | true =>
      cases us with
      | nil => exact absurd h.singleton.2 Bool.true_eq_false.mp
      | cons u us => cases u <;> rfl
  | _ => rfl

instance : Blind q isLifetime :=
  .of_ends (fun _ more h => isLifetime_append more h) (fun joint _ _ _ _ => by cases joint <;> rfl) fun _ _ _ => rfl

theorem marks_append (cs : List Char) (more : List Token) (h : EndsItem ts) : marks cs (ts ++ more) = marks cs ts := by
  induction cs generalizing ts with
  | nil =>
    obtain ⟨t, us, rfl⟩ := h.exists_cons
    cases t <;> rfl
  | cons c cs ih =>
    obtain ⟨t, us, rfl⟩ := h.exists_cons
    cases t with
    | punct d joint e =>
      cases cs with
      | nil => rfl
      | cons c' cs =>
        cases joint with
        | false => rfl
        | true =>
          have hn : us ≠ [] := by
            rintro rfl
            exact absurd h.singleton.2 Bool.true_eq_false.mp
          exact congrArg (decide (c = d) && ·) (ih (h.of_cons hn))
    | _ => cases cs <;> rfl

instance (mark : String) : Steady q (isMark mark) := .of_ends fun _ more h => marks_append _ more h

theorem blind_isMark {mark : String} (h : mark ≠ "#") : Blind q (isMark mark) := by
  have hm (joint : Bool) (e e' : Extent) (content behind : List Token) :
      isMark mark (.punct '#' joint e :: .group .bracket content e' :: behind) = isMark mark [] := by
    have hc : mark.toList ≠ ['#'] := fun hc => h (String.toList_inj.mp hc)
    rw [isMark, isMark]
    generalize mark.toList = cs at hc
    rcases cs with _ | ⟨c, _ | ⟨c', cs⟩⟩
    · rfl
    · exact decide_eq_false fun hcc => hc (congrArg (List.cons · []) hcc)
    · cases joint with
      | false => rfl
      | true =>
        have hg : marks (c' :: cs) (.group .bracket content e' :: behind) = false := by cases cs <;> rfl
        rw [marks, hg, Bool.and_false]
        · rfl
        · exact List.cons_ne_nil c' cs
  refine .of_ends (fun _ more h => marks_append _ more h) (fun joint e content e' behind => hm joint e e' content behind) ?_
  intro content e behind
  rw [isMark, isMark]
  rcases mark.toList with _ | ⟨c, _ | ⟨c', cs⟩⟩ <;> rfl

instance : Blind q (isMark "!") := blind_isMark (by decide)

instance : Blind q (isMark "*") := blind_isMark (by decide)

instance : Blind q (isMark "+") := blind_isMark (by decide)

instance : Blind q (isMark ":") := blind_isMark (by decide)

instance : Blind q (isMark "::") := blind_isMark (by decide)

instance : Blind q (isMark "<") := blind_isMark (by decide)

instance : Blind q (isMark ">") := blind_isMark (by decide)

instance : Blind q (isMark ",") := blind_isMark (by decide)

instance : Blind q (isMark "=") := blind_isMark (by decide)

instance : Blind q (isMark "|") := blind_isMark (by decide)

instance : Blind q (isMark "..") := blind_isMark (by decide)

/-! ### Tests behind the next tokens -/

theorem skip_append (more : List Token) (h : EndsItem ts) : skip (ts ++ more) = skip ts ++ more := by
  obtain ⟨t, us, rfl⟩ := h.exists_cons
  cases t with
  | punct c joint e =>
    have hl := isLifetime_append more h
    rw [List.cons_append] at hl ⊢
    rw [skip, skip, hl]
    split
    · rename_i hc
      cases us with
      | nil =>
        rw [Bool.and_eq_true] at hc
        cases joint <;> exact absurd hc.2 Bool.false_ne_true
      | cons u us => rfl
    · rfl
  | _ => rfl

theorem skip_suffix (ts : List Token) : skip ts <:+ ts := by
  fun_cases skip ts with
  | case1 c joint e ts hc => exact (List.drop_suffix 1 ts).trans (List.suffix_cons _ ts)
  | case2 c joint e ts hc => exact List.suffix_cons _ ts
  | case3 t ts hp => exact List.suffix_cons t ts
  | case4 => exact List.suffix_rfl

/-- Behind the next token stands another one, unless that ends an item. -/
theorem exists_of_skip_eq_nil (h : EndsItem ts) (hs : skip ts = []) : ∃ t : Token, ts = [t] ∧ t.endsItem := by
  obtain ⟨t, us, rfl⟩ := h.exists_cons
  cases us with
  | nil => exact ⟨t, rfl, h.singleton.1⟩
  | cons u us =>
    exfalso
    cases t with
    | punct c joint e =>
      rw [skip] at hs
      split at hs
      · rename_i hc
        obtain rfl : us = [] := hs
        have hu := (h.of_cons (List.cons_ne_nil u [])).singleton.1
        rw [Bool.and_eq_true] at hc
        cases u with
        | ident => cases hu
        | _ => cases joint <;> exact absurd hc.2 Bool.false_ne_true
      · cases hs
    | _ => cases hs

theorem skip_ends (h : EndsItem ts) (hn : skip ts ≠ []) : EndsItem (skip ts) := h.drop (skip_suffix ts) hn

instance [hb : Blind q test] : Steady q fun ts => test (skip ts) where
  eq ts hf := by
    obtain rfl | ⟨joint, e, content, e', behind, rfl⟩ := hq.cases
    · exact congrArg (fun ts => test (skip ts)) (List.append_nil ts)
    · rw [skip_append _ hf]
      by_cases hn : skip ts = []
      · rw [hn]
        exact hb.first
      · exact hb.eq _ (skip_ends hf hn)

instance [hb : Blind q test] : Steady q fun ts => test (skip (skip ts)) where
  eq ts hf := by
    obtain rfl | ⟨joint, e, content, e', behind, rfl⟩ := hq.cases
    · exact congrArg (fun ts => test (skip (skip ts))) (List.append_nil ts)
    · rw [skip_append _ hf]
      by_cases hn : skip ts = []
      · rw [hn]
        exact hb.second
      · exact (inferInstance : Steady _ fun ts => test (skip ts)).eq _ (skip_ends hf hn)

/-- Behind a token that ends no item there is another one. -/
theorem Steady.guarded (test' test : List Token → Bool) [hg : Steady q test'] [ht : Steady q test]
    (hn : ∀ t : Token, t.endsItem → test' [t] = false) : Steady q fun ts => test' ts && test (skip ts) where
  eq ts hf := by
    rw [hg.eq ts hf]
    by_cases hc : test' ts = true
    · rw [hc, Bool.true_and, Bool.true_and]
      obtain rfl | ⟨joint, e, content, e', behind, rfl⟩ := hq.cases
      · exact congrArg (fun ts => test (skip ts)) (List.append_nil ts)
      · rw [skip_append _ hf]
        refine ht.eq _ (skip_ends hf fun hs => ?_)
        obtain ⟨t, rfl, he⟩ := exists_of_skip_eq_nil hf hs
        exact Bool.false_ne_true ((hn t he).symm.trans hc)
    · rw [Bool.not_eq_true] at hc
      rw [hc]
      rfl

theorem Steady.behind_word (word : String) (test : List Token → Bool) [Steady q test] :
    Steady q fun ts => isWord word ts && test (skip ts) :=
  .guarded (isWord word) test fun t ht => by
    cases t with
    | ident => cases ht
    | _ => rfl

end

instance (b : Bool) : Blind q fun _ => b where
  eq _ _ := rfl
  first := rfl
  second := rfl

section
variable (test test' : List Token → Bool)

instance [h : Steady q test] [h' : Steady q test'] : Steady q fun ts => test ts || test' ts where
  eq ts hf := by rw [h.eq ts hf, h'.eq ts hf]

instance [h : Steady q test] [h' : Steady q test'] : Steady q fun ts => test ts && test' ts where
  eq ts hf := by rw [h.eq ts hf, h'.eq ts hf]

instance [h : Steady q test] : Steady q fun ts => !test ts where
  eq ts hf := by rw [h.eq ts hf]

instance [h : Blind q test] [h' : Blind q test'] : Blind q fun ts => test ts || test' ts where
  first := by rw [h.first, h'.first]
  second := by rw [h.second, h'.second]

end
end Reader
end GeneratorHost
