import GeneratorHost.Proofs.Grammar.Items

/-! The words that begin a struct or an enum are read by the productions of structs and enums, and as names of
lifetimes. Between brackets they may stand anywhere. -/
namespace GeneratorHost
open Std.Do

set_option mvcgen.warning false

/-- Whether the word in front is one that only type declarations begin with. -/
def startsType (ts : List Token) : Bool := Reader.isWord "struct" ts || Reader.isWord "enum" ts

/-- Tokens none of which begins a type declaration; lifetimes may be named by any word. -/
inductive Typeless : List Token → Prop
  | nil : Typeless []
  | lifetime {e f : Extent} {raw : Bool} {name : String} {ts : List Token} (h : Typeless ts) :
      Typeless (.punct Token.apostrophe true e :: .ident raw name f :: ts)
  | cons {t : Token} {ts : List Token} (ht : ¬ startsType [t]) (h : Typeless ts) : Typeless (t :: ts)

theorem Typeless.append {ts us : List Token} (h : Typeless ts) (h' : Typeless us) : Typeless (ts ++ us) := by
  induction h with
  | nil => exact h'
  | lifetime _ ih => exact .lifetime ih
  | cons ht _ ih => exact .cons ht ih

theorem Typeless.singleton {t : Token} (h : ¬ startsType [t]) : Typeless [t] := .cons h .nil

/-- The tokens that a reading begins with. -/
structure Beginning where
  tokens : List Token

/-- The word of a struct, an enum or a union stands among the tokens. -/
def Beginning.HasTypeWord (b : Beginning) : Prop :=
  ∃ read rest, b.tokens = read ++ rest ∧ (startsType rest ∨ Reader.isWord "union" rest)

/-- A state that comes of reading such tokens only. -/
def ReaderState.Behind (b : Beginning) (s : ReaderState) : Prop := ∃ read, b.tokens = read ++ s.rest ∧ Typeless read

namespace ReaderState.Behind
variable {b : Beginning} {s s' : ReaderState}

theorem start (s : ReaderState) : s.Behind ⟨s.rest⟩ := ⟨[], rfl, .nil⟩

theorem step (h : s.Behind b) {read : List Token} (hr : s.rest = read ++ s'.rest) (ht : Typeless read) :
    s'.Behind b := by
  obtain ⟨read', hb, ht'⟩ := h
  exact ⟨read' ++ read, by rw [hb, hr, List.append_assoc], ht'.append ht⟩

theorem one (h : s.Behind b) {t : Token} (hr : s.rest = t :: s'.rest) (ht : ¬ startsType [t]) : s'.Behind b :=
  have hr : s.rest = [t] ++ s'.rest := hr
  h.step hr (.singleton ht)

theorem two (h : s.Behind b) {t u : Token} (hr : s.rest = t :: u :: s'.rest) (ht : Typeless [t, u]) : s'.Behind b :=
  have hr : s.rest = [t, u] ++ s'.rest := hr
  h.step hr ht

end ReaderState.Behind

namespace Reader
variable {α σ : Type} {b : Beginning}

/-- A reader reads such tokens only. -/
abbrev Skips (b : Beginning) (p : Reader α) : Prop :=
  ⦃fun s => ⌜s.Behind b⌝⦄ p ⦃⇓? _ s => ⌜s.Behind b⌝⦄

theorem skips_iff {p : Reader α} :
    Skips b p ↔ ∀ s a s', p s = some (a, s') → s.Behind b → s'.Behind b :=
  triple_iff

/-! ### Steps -/

theorem not_startsType_cons {t : Token} {us : List Token} (h : ¬ startsType (t :: us)) : ¬ startsType [t] := by
  cases t with
  | ident raw => cases raw <;> exact h
  | _ => exact Bool.false_ne_true

@[spec high] theorem anyToken_skips :
    ⦃fun s => ⌜s.Behind b ∧ ¬ startsType s.rest⌝⦄ anyToken ⦃⇓? _ s => ⌜s.Behind b⌝⦄ := by
  rw [triple_iff]
  rintro ⟨_ | ⟨t, rest⟩, written, found⟩ a s' h ⟨hs, ht⟩
  · cases h
  · cases h
    exact hs.one rfl (not_startsType_cons ht)

@[spec high] theorem ahead_skips (test : List Token → Bool) : Skips b (ahead test) := by
  unfold ahead
  mvcgen

@[spec high] theorem ahead2_skips (test : List Token → Bool) : Skips b (ahead2 test) := by
  unfold ahead2
  mvcgen

@[spec high] theorem ahead3_skips (test : List Token → Bool) : Skips b (ahead3 test) := by
  unfold ahead3
  mvcgen

@[spec high] theorem require_skips (condition : Bool) : Skips b (require condition) := by
  unfold require
  mvcgen

private theorem typeless_takeMark {mark : List Char} {us marks rest : List Token}
    (h : takeMark mark us = some (marks, rest)) : ∃ read, us = read ++ rest ∧ Typeless read := by
  fun_induction takeMark mark us generalizing marks rest with
  | case1 =>
    cases h
    exact ⟨[_], rfl, .singleton Bool.false_ne_true⟩
  | case3 _ _ _ _ _ ih =>
    obtain ⟨⟨_, _⟩, hm, he⟩ := Option.map_eq_some_iff.mp h
    cases he
    obtain ⟨read, rfl, hr⟩ := ih hm
    exact ⟨_ :: read, rfl, .cons Bool.false_ne_true hr⟩
  | _ => cases h

@[spec high] theorem mark_skips (text : String) : Skips b (mark text) := by
  unfold mark
  mvcgen
  rename_i s hs marks rest hm
  obtain ⟨read, hr, ht⟩ := typeless_takeMark hm
  exact hs.step hr ht

@[spec high] theorem anyMark_skips : Skips b anyMark := by
  unfold anyMark
  mvcgen

theorem not_startsType_of_isWord {text : String} {us : List Token} (hw : isWord text us)
    (h : text ∉ ["struct", "enum"] := by decide) : ¬ startsType us := by
  unfold isWord at hw
  split at hw
  · simp only [decide_eq_true_eq] at hw
    subst hw
    simpa [startsType, isWord] using h
  · cases hw

/-- Words other than those of type declarations. -/
@[spec high] theorem word_skips {text : String} (h : text ∉ ["struct", "enum"]) : Skips b (word text) := by
  unfold word ahead require
  mvcgen
  rename_i hs hw
  exact ⟨hs, not_startsType_of_isWord hw h⟩

@[spec high] theorem mark?_skips (text : String) : Skips b (mark? text) := by
  unfold mark?
  mvcgen

@[spec high] theorem word?_skips {text : String} (h : text ∉ ["struct", "enum"]) : Skips b (word? text) := by
  unfold word?
  mvcgen

/-- Any name, reserved or not, apart from the words of type declarations. -/
@[spec high] theorem anyName_skips :
    ⦃fun s => ⌜s.Behind b ∧ ¬ startsType s.rest⌝⦄ anyName ⦃⇓? _ s => ⌜s.Behind b⌝⦄ := by
  unfold anyName
  mvcgen

@[spec high] theorem nameIf_skips {test : List Token → Bool} (h : ∀ us, test us → ¬ startsType us) :
    Skips b (nameIf test) := by
  unfold nameIf ahead require
  mvcgen
  rename_i hs ht
  exact ⟨hs, h _ ht⟩

theorem not_startsType_of_isName {us : List Token} (h : isName us) : ¬ startsType us := by
  unfold isName at h
  split at h
  · rename_i raw name _ _
    cases raw with
    | true => exact Bool.false_ne_true
    | false =>
      simp only [startsType, isWord, Bool.or_eq_true, decide_eq_true_eq]
      rintro (rfl | rfl) <;> exact absurd h (by decide)
  · cases h

theorem not_startsType_of_isNameOr {text : String} {us : List Token} (hn : isName us || isWord text us)
    (h : text ∉ ["struct", "enum"] := by decide) : ¬ startsType us := by
  rw [Bool.or_eq_true] at hn
  exact hn.elim not_startsType_of_isName fun hw => not_startsType_of_isWord hw h

@[spec high] theorem name_skips : Skips b name := by
  exact nameIf_skips fun _ => not_startsType_of_isName

/-- Any word may name a lifetime. -/
@[spec high] theorem lifetime_skips : Skips b lifetime := by
  unfold lifetime ahead require anyToken
  mvcgen
  rename_i s hs hl t rest hr u rest' hr'
  subst hr'
  rw [hr] at hl
  unfold isLifetime at hl
  split at hl
  · rename_i he
    cases he
    exact hs.two hr (decide_eq_true_eq.mp hl ▸ .lifetime .nil)
  · cases hl

@[spec high] theorem lifetime?_skips : Skips b lifetime? := by
  unfold lifetime?
  mvcgen

theorem not_startsType_of_isLiteral {us : List Token} (h : isLiteral us) : ¬ startsType us := by
  unfold isLiteral at h
  split at h
  · exact Bool.false_ne_true
  · exact Bool.false_ne_true
  · rw [Bool.or_eq_true] at h
    exact h.elim (not_startsType_of_isWord ·) (not_startsType_of_isWord ·)

theorem not_startsType_of_isTextLiteral {us : List Token} (h : isTextLiteral us) : ¬ startsType us := by
  unfold isTextLiteral at h
  split at h
  · exact Bool.false_ne_true
  · cases h

@[spec high] theorem literal_skips : Skips b literal := by
  unfold literal require
  mvcgen
  · rename_i hs _ _ _ _ _ hr _
    exact hs.two hr (.cons Bool.false_ne_true (.singleton Bool.false_ne_true))
  · rename_i hs _ _ hr hl
    exact ⟨hs, not_startsType_of_isLiteral hl⟩

@[spec high] theorem anyGroup_skips : Skips b anyGroup := by
  unfold anyGroup anyToken
  mvcgen
  rename_i s hs t rest hr d content extent ht
  subst ht
  exact hs.one hr Bool.false_ne_true

/-! ### Readers around readers -/

/-- It makes no difference what stands in a group. -/
@[spec high] theorem inGroup_skips (delimiter : Delimiter) (p : Reader α) : Skips b (inGroup delimiter p) := by
  unfold inGroup require
  mvcgen
  rename_i s hs d content extent rest hr _ _ _ _ _
  exact hs.one hr Bool.false_ne_true

@[spec high] theorem parenthesized_skips (p : Reader α) : Skips b (parenthesized p) := inGroup_skips _ p

@[spec high] theorem bracketed_skips (p : Reader α) : Skips b (bracketed p) := inGroup_skips _ p

@[spec high] theorem braced_skips (p : Reader α) : Skips b (braced p) := inGroup_skips _ p

@[spec high] theorem collecting_skips {p : Reader α} (h : Skips b p) : Skips b (collecting p) := by
  rw [skips_iff]
  intro s r s' he hs
  obtain ⟨t, hp, -, rfl⟩ := exists_of_collecting he
  exact skips_iff.mp h _ _ t hp hs

@[spec high] theorem capturing_skips {p : Reader α} (h : Skips b p) : Skips b (capturing p) := by
  rw [skips_iff]
  intro s r s' he hs
  obtain ⟨t, hp, -, rfl⟩ := exists_of_capturing he
  exact skips_iff.mp h _ _ t hp hs

@[spec high] theorem write_skips (us : List Token) : Skips b (write us) := by
  unfold write
  mvcgen

@[spec high] theorem verbatim_skips {p : Reader α} (h : Skips b p) : Skips b (verbatim p) := by
  rw [skips_iff]
  intro s a s' he hs
  obtain ⟨t, hp, rfl⟩ := exists_of_verbatim he
  exact skips_iff.mp h _ _ t hp hs

@[spec high] theorem attempt_skips {p : Reader α} (h : Skips b p) : Skips b (attempt p) := by
  rw [skips_iff] at h
  unfold attempt
  mvcgen
  rename_i s hs a s' hp
  exact h s a s' hp hs

/-! ### Repetition -/

private theorem iterateUpTo_skips {step : σ → Reader (Bool × σ)} (h : ∀ s, Skips b (step s)) (fuel : Nat)
    (s : σ) : Skips b (iterateUpTo fuel step s) := by
  induction fuel generalizing s with
  | zero => mvcgen [iterateUpTo]
  | succ fuel ih => mvcgen [iterateUpTo, h, ih]

@[spec high] theorem iterate_skips {step : σ → Reader (Bool × σ)} {s : σ} (h : ∀ s, Skips b (step s)) :
    Skips b (iterate step s) := by
  have hi := iterateUpTo_skips h
  unfold iterate
  mvcgen [hi]

@[spec high] theorem repeating_skips {step : Reader Bool} (h : Skips b step) : Skips b (repeating step) := by
  unfold repeating
  mvcgen [h]

end Reader
end GeneratorHost
