import Mathlib.Tactic.Common
import GeneratorHost.Grammar.Reader
import GeneratorHost.Proofs.Token.Proper

/-! What readers keep: the tokens ahead stay proper, what is written begins and ends where what was read does, and
every declaration found has a property. -/
namespace GeneratorHost
open Std.Do

set_option mvcgen.warning false

/-! ### Tokens read and written -/

namespace Token

/-- What is left to read of some tokens, or of what is in a group among them. -/
inductive Within (tokens : List Token) : List Token → Prop
  | all : Within tokens tokens
  | behind {t : Token} {ts : List Token} (h : Within tokens (t :: ts)) : Within tokens ts
  | inside {delimiter : Delimiter} {content : List Token} {extent : Extent} {ts : List Token}
      (h : Within tokens (.group delimiter content extent :: ts)) : Within tokens content

theorem Within.proper {tokens ts : List Token} (h : Within tokens ts) (ht : ∀ t ∈ tokens, t.Proper) :
    ∀ t ∈ ts, t.Proper := by
  induction h with
  | all => exact ht
  | behind _ ih => exact fun t hm => ih t (List.mem_cons_of_mem _ hm)
  | inside _ ih =>
    cases ih _ List.mem_cons_self with
    | group content_proper => exact content_proper

theorem Within.drop {tokens rest : List Token} (read : List Token) (h : Within tokens (read ++ rest)) :
    Within tokens rest := by
  induction read with
  | nil => exact h
  | cons t ts ih => exact ih h.behind

/-- Tokens begin and end where other tokens do. -/
structure Covers (read wrote : List Token) : Prop where
  start : wrote.head?.map (·.extent.start) = read.head?.map (·.extent.start)
  stop : wrote.getLast?.map (·.extent.stop) = read.getLast?.map (·.extent.stop)

namespace Covers
variable {read wrote read' wrote' : List Token}

theorem refl (ts : List Token) : Covers ts ts := ⟨rfl, rfl⟩

theorem of_map_extent (h : wrote.map (·.extent) = read.map (·.extent)) : Covers read wrote := by
  constructor
  · have := congrArg (·.head?.map (·.start)) h
    simpa [Function.comp_def] using this
  · have := congrArg (·.getLast?.map (·.stop)) h
    simpa [Function.comp_def] using this

theorem singleton {t t' : Token} (h : t'.extent = t.extent) : Covers [t] [t'] :=
  .of_map_extent (by simp [h])

theorem append (h : Covers read wrote) (h' : Covers read' wrote') : Covers (read ++ read') (wrote ++ wrote') := by
  constructor
  · simp only [List.head?_append, Option.map_or, h.start, h'.start]
  · simp only [List.getLast?_append, Option.map_or, h.stop, h'.stop]

theorem eq_nil (h : Covers [] wrote) : wrote = [] := by
  simpa using h.start

theorem span_eq (h : Covers read wrote) : span wrote = span read := by
  obtain ⟨hs, he⟩ := h
  cases read with
  | nil =>
    cases wrote with
    | nil => rfl
    | cons => simp at hs
  | cons r rs =>
    cases wrote with
    | nil => simp at hs
    | cons w ws =>
      simp only [List.head?_cons, Option.map_some, Option.some.injEq] at hs
      rw [List.getLast?_eq_some_getLast (List.cons_ne_nil _ _), List.getLast?_eq_some_getLast (List.cons_ne_nil _ _),
        Option.map_some, Option.map_some, Option.some.injEq] at he
      simp only [span, hs, he]

end Covers

/-- Tokens begin where other tokens do. -/
inductive Begins : List Token → List Token → Prop
  | mk {t t' : Token} {ts ts' : List Token} (h : t'.extent.start = t.extent.start) : Begins (t :: ts) (t' :: ts')

theorem Covers.begins {read wrote : List Token} (h : Covers read wrote) (hr : read ≠ []) : Begins read wrote := by
  obtain ⟨t, ts, rfl⟩ := List.exists_cons_of_ne_nil hr
  cases wrote with
  | nil => simpa using h.start
  | cons => exact .mk (by simpa using h.start)

namespace Begins
variable {read wrote read' wrote' : List Token}

theorem append (h : Begins read wrote) : Begins (read ++ read') (wrote ++ wrote') := by
  cases h with
  | mk h => exact .mk h

/-- Between what begins in the same place and what ends in the same place there may be anything. -/
theorem covers (h : Begins read wrote) (h' : Covers read' wrote') (hr' : read' ≠ []) :
    Covers (read ++ read') (wrote ++ wrote') := by
  cases h with
  | mk h =>
    refine ⟨by simp [h], ?_⟩
    have hl := h'.stop
    rw [List.getLast?_eq_some_getLast hr', Option.map_some] at hl
    simp only [List.getLast?_append, Option.map_or, hl, List.getLast?_eq_some_getLast hr', Option.map_some,
      Option.some_or]

end Begins
end Token

/-- What is read and written on the way from one state to another. -/
structure ReaderState.Passage (s s' : ReaderState) (read wrote : List Token) : Prop where
  rest : s.rest = read ++ s'.rest
  written : s'.written.toList = s.written.toList ++ wrote

theorem ReaderState.Passage.refl (s : ReaderState) : s.Passage s [] [] := by
  constructor <;> simp

theorem ReaderState.Passage.trans {s s' s'' : ReaderState} {read wrote read' wrote' : List Token}
    (h : s.Passage s' read wrote) (h' : s'.Passage s'' read' wrote') :
    s.Passage s'' (read ++ read') (wrote ++ wrote') := by
  constructor
  · rw [h.rest, h'.rest, List.append_assoc]
  · rw [h'.written, h.written, List.append_assoc]

theorem ReaderState.Passage.length_le {s s' : ReaderState} {read wrote : List Token} (h : s.Passage s' read wrote) :
    s'.rest.length ≤ s.rest.length := by
  rw [h.rest, List.length_append]
  exact Nat.le_add_left _ _

theorem ReaderState.Passage.ne_nil {s s' : ReaderState} {read wrote : List Token} (h : s.Passage s' read wrote)
    (hm : s'.rest.length < s.rest.length) : read ≠ [] := by
  rintro rfl
  rw [h.rest] at hm
  exact Nat.lt_irrefl _ hm

/-- The tokens of a text. -/
structure TokenSource where
  tokens : List Token
  proper : ∀ t ∈ tokens, t.Proper

/-- Where a reading of some of these tokens began, and whether what it writes is to cover what it reads. -/
structure Reading (source : TokenSource) where
  start : ReaderState
  exact : Bool
  within : Token.Within source.tokens start.rest

/-- A state that a reading comes to. The declarations found so far have a property. -/
structure ReaderState.Proper {source : TokenSource} (P : Declaration → Prop) (b : Reading source) (s : ReaderState) :
    Prop where
  found : ∀ d ∈ s.found, P d
  passed : ∃ read wrote, b.start.Passage s read wrote ∧ (b.exact → Token.Covers read wrote)

namespace ReaderState.Proper
variable {source : TokenSource} {P : Declaration → Prop} {b : Reading source} {s s' : ReaderState}

theorem within (h : s.Proper P b) : Token.Within source.tokens s.rest := by
  obtain ⟨-, read, wrote, hp, -⟩ := h
  exact Token.Within.drop read (hp.rest ▸ b.within)

theorem rest (h : s.Proper P b) : ∀ t ∈ s.rest, t.Proper := h.within.proper source.proper

/-- A step that covers what it reads. -/
theorem step (h : s.Proper P b) (read wrote : List Token) (hp : s.Passage s' read wrote)
    (hc : b.exact → Token.Covers read wrote) (hf : ∀ d ∈ s'.found, P d) : s'.Proper P b := by
  obtain ⟨-, read₀, wrote₀, hp₀, hc₀⟩ := h
  exact ⟨hf, _, _, hp₀.trans hp, fun he => (hc₀ he).append (hc he)⟩

end ReaderState.Proper

/-- A reading comes to where it begins. -/
theorem Reading.proper_start {source : TokenSource} {P : Declaration → Prop} (b : Reading source)
    (hf : ∀ d ∈ b.start.found, P d) : b.start.Proper P b :=
  ⟨hf, [], [], .refl _, fun _ => .refl []⟩

/-- A state of a reading where what is written begins, but may not end, where what is read does. -/
structure ReaderState.Begun {source : TokenSource} (P : Declaration → Prop) (b : Reading source) (s : ReaderState) :
    Prop where
  found : ∀ d ∈ s.found, P d
  passed : ∃ read wrote, b.start.Passage s read wrote ∧ (b.exact → Token.Begins read wrote)

namespace ReaderState
variable {source : TokenSource} {P : Declaration → Prop} {b : Reading source} {s s' : ReaderState}

theorem Begun.within (h : s.Begun P b) : Token.Within source.tokens s.rest := by
  obtain ⟨-, read, wrote, hp, -⟩ := h
  exact Token.Within.drop read (hp.rest ▸ b.within)

/-- A reading has begun where it has read a token. -/
theorem Proper.begun (h : s.Proper P b) {within : Token.Within source.tokens s.rest}
    (h' : s'.Proper P ⟨s, true, within⟩) (hm : s'.rest.length < s.rest.length) : s'.Begun P b := by
  obtain ⟨-, read, wrote, hp, hc⟩ := h
  obtain ⟨hf, read', wrote', hp', hc'⟩ := h'
  refine ⟨hf, _, _, hp.trans hp', fun he => ((hc he).append (hc' rfl)).begins ?_⟩
  simp [hp'.ne_nil hm]

theorem Begun.loosely (h : s.Begun P b) {exact : Bool} {within : Token.Within source.tokens s.rest}
    (h' : s'.Proper P ⟨s, exact, within⟩) : s'.Begun P b := by
  obtain ⟨-, read, wrote, hp, hb⟩ := h
  obtain ⟨hf, read', wrote', hp', -⟩ := h'
  exact ⟨hf, _, _, hp.trans hp', fun he => (hb he).append⟩

/-- It ends with a token that is written as it is read. -/
theorem Begun.proper (h : s.Begun P b) {within : Token.Within source.tokens s.rest}
    (h' : s'.Proper P ⟨s, true, within⟩) (hm : s'.rest.length < s.rest.length) : s'.Proper P b := by
  obtain ⟨-, read, wrote, hp, hb⟩ := h
  obtain ⟨hf, read', wrote', hp', hc⟩ := h'
  exact ⟨hf, _, _, hp.trans hp', fun he => (hb he).covers (hc rfl) (hp'.ne_nil hm)⟩

end ReaderState

/-- Names that items can have: identifiers that stand for no module or type by their place. -/
structure IsItemName (name : String) : Prop where
  identifier : UnitRoot.isIdentifier name.toList
  not_place : name ∉ ["crate", "self", "super", "Self"]

namespace Reader
variable {α σ : Type} {source : TokenSource} {P : Declaration → Prop} {b : Reading source}

/-- A reader keeps states proper and its value has a property. -/
abbrev Gives (P : Declaration → Prop) (b : Reading source) (p : Reader α) (Q : α → Prop) : Prop :=
  ⦃fun s => ⌜s.Proper P b⌝⦄ p ⦃⇓? a s => ⌜s.Proper P b ∧ Q a⌝⦄

/-- A reader keeps states proper. -/
abbrev Keeps (P : Declaration → Prop) (b : Reading source) (p : Reader α) : Prop :=
  ⦃fun s => ⌜s.Proper P b⌝⦄ p ⦃⇓? _ s => ⌜s.Proper P b⌝⦄

/-- What holds of every run that does not fail. -/
theorem triple_iff {p : Reader α} {A : ReaderState → Prop} {B : α → ReaderState → Prop} :
    ⦃fun s => ⌜A s⌝⦄ p ⦃⇓? a s => ⌜B a s⌝⦄ ↔ ∀ s a s', p s = some (a, s') → A s → B a s' := by
  have hw (s : ReaderState) : (wp⟦p⟧ (⇓? a s => ⌜B a s⌝) s).down ↔ ∀ a s', p s = some (a, s') → B a s' := by
    change ((wp (p s)).apply _).down ↔ _
    cases hp : p s with
    | none =>
      simp only [reduceCtorEq, false_implies, implies_true, iff_true]
      exact trivial
    | some r =>
      obtain ⟨a, s'⟩ := r
      constructor
      · rintro h a s' ⟨⟩
        exact h
      · intro h
        exact h a s' rfl
  constructor
  · intro h s a s' hp hs
    exact (hw s).mp (h s hs) a s' hp
  · intro h s hs
    exact (hw s).mpr fun a s' hp => h s a s' hp hs

theorem gives_iff {p : Reader α} {Q : α → Prop} :
    Gives P b p Q ↔ ∀ s a s', p s = some (a, s') → s.Proper P b → s'.Proper P b ∧ Q a :=
  triple_iff

theorem keeps_iff {p : Reader α} :
    Keeps P b p ↔ ∀ s a s', p s = some (a, s') → s.Proper P b → s'.Proper P b :=
  triple_iff

theorem Gives.keeps {p : Reader α} {Q : α → Prop} (h : Gives P b p Q) : Keeps P b p :=
  keeps_iff.mpr fun s a s' hp hs => (gives_iff.mp h s a s' hp hs).1

theorem gives_of_keeps {p : Reader α} (h : Keeps P b p) : Gives P b p fun _ => True :=
  gives_iff.mpr fun s a s' hp hs => ⟨keeps_iff.mp h s a s' hp hs, trivial⟩

theorem bind_eq_some_iff {β : Type} {p : Reader α} {f : α → Reader β} {s : ReaderState} {r : β × ReaderState} :
    (p >>= f) s = some r ↔ ∃ a s', p s = some (a, s') ∧ f a s' = some r :=
  Option.bind_eq_some_iff.trans Prod.exists

/-- Where a reader fails there is nothing to keep. -/
@[spec] theorem failure_spec {Q : PostCond α (.arg ReaderState (.except PUnit .pure))} :
    ⦃fun _ => Q.2.1 ()⦄ (failure : Reader α) ⦃Q⦄ :=
  fun _ h => h

/-! ### Steps -/

theorem anyToken_gives : Gives P b anyToken Token.Proper := by
  rw [gives_iff]
  rintro ⟨rest, written, found⟩ a s' h hs
  cases rest with
  | nil => cases h
  | cons t ts =>
    cases h
    refine ⟨hs.step _ _ ⟨List.singleton_append.symm, by simp⟩ (fun _ => .refl [a]) hs.found, ?_⟩
    exact hs.rest a List.mem_cons_self

@[spec] theorem anyToken_keeps : Keeps P b anyToken := anyToken_gives.keeps

@[spec] theorem ahead_keeps (test : List Token → Bool) : Keeps P b (ahead test) := by
  mvcgen [ahead]

@[spec] theorem ahead2_keeps (test : List Token → Bool) : Keeps P b (ahead2 test) := by
  mvcgen [ahead2]

@[spec] theorem ahead3_keeps (test : List Token → Bool) : Keeps P b (ahead3 test) := by
  mvcgen [ahead3]

@[spec] theorem atEnd_keeps : Keeps P b atEnd := by
  mvcgen [atEnd]

@[spec] theorem require_keeps (condition : Bool) : Keeps P b (require condition) := by
  mvcgen [require]

/-- A mark is written where it was read, character by character. -/
private theorem exists_read_of_takeMark {mark : List Char} {ts marks rest : List Token}
    (h : takeMark mark ts = some (marks, rest)) :
    ∃ read, ts = read ++ rest ∧ marks.map (·.extent) = read.map (·.extent) ∧ marks.length = mark.length ∧
      mark ≠ [] := by
  fun_induction takeMark mark ts generalizing marks rest with
  | case1 =>
    cases h
    exact ⟨[_], rfl, rfl, rfl, List.cons_ne_nil _ _⟩
  | case3 _ _ _ _ _ ih =>
    obtain ⟨⟨_, _⟩, hm, he⟩ := Option.map_eq_some_iff.mp h
    cases he
    obtain ⟨read, rfl, he, hl, -⟩ := ih hm
    exact ⟨_ :: read, rfl, congrArg (List.cons _) he, congrArg Nat.succ hl, List.cons_ne_nil _ _⟩
  | _ => cases h

theorem exists_read_of_mark {text : String} {s s' : ReaderState} {u : Unit} (h : mark text s = some (u, s')) :
    ∃ read wrote, s.Passage s' read wrote ∧ wrote.map (·.extent) = read.map (·.extent) ∧
      wrote.length = text.toList.length ∧ read ≠ [] ∧ s'.found = s.found := by
  unfold mark at h
  simp only [bind, StateT.bind, get, getThe, MonadStateOf.get, StateT.get, pure, Option.bind] at h
  cases ht : takeMark text.toList s.rest with
  | none =>
    rw [ht] at h
    cases h
  | some r =>
    obtain ⟨marks, rest⟩ := r
    rw [ht] at h
    cases h
    obtain ⟨read, hr, he, hl, hn⟩ := exists_read_of_takeMark ht
    refine ⟨read, marks, ⟨hr, by simp⟩, he, hl, ?_, rfl⟩
    have := congrArg List.length he
    rw [List.length_map, List.length_map, hl] at this
    rw [← List.length_pos_iff] at hn ⊢
    omega

@[spec] theorem mark_keeps (text : String) : Keeps P b (mark text) := by
  rw [keeps_iff]
  intro s u s' h hs
  obtain ⟨read, wrote, hp, he, -, -, hf⟩ := exists_read_of_mark h
  exact hs.step _ _ hp (fun _ => .of_map_extent he) (hf ▸ hs.found)

@[spec] theorem anyMark_keeps : Keeps P b anyMark := by
  mvcgen [anyMark]

@[spec] theorem word_keeps (text : String) : Keeps P b (word text) := by
  mvcgen [word]

@[spec] theorem mark?_keeps (text : String) : Keeps P b (mark? text) := by
  mvcgen [mark?]

@[spec] theorem word?_keeps (text : String) : Keeps P b (word? text) := by
  mvcgen [word?]

@[spec] theorem anyName_keeps : Keeps P b anyName := by
  mvcgen [anyName]

/-- A name that is read after a look at it has what every proper name has that passes. -/
theorem nameIf_gives {test : List Token → Bool} {Q : String → Prop}
    (h : ∀ raw name extent ts, (Token.ident raw name extent).Proper → test (.ident raw name extent :: ts) → Q name) :
    Gives P b (nameIf test) Q := by
  rw [gives_iff]
  rintro ⟨rest, written, found⟩ a s' he hs
  change (do require (test rest); anyName : Reader String) ⟨rest, written, found⟩ = some (a, s') at he
  cases ht : test rest with
  | false =>
    rw [ht] at he
    cases he
  | true =>
    rw [ht] at he
    refine ⟨keeps_iff.mp anyName_keeps _ _ _ he hs, ?_⟩
    cases rest with
    | nil => cases he
    | cons t ts =>
      cases t with
      | ident =>
        cases he
        exact h _ _ _ ts (hs.rest _ List.mem_cons_self) ht
      | _ => cases he

theorem isItemName_of_isName {raw : Bool} {name : String} {extent : Extent} {ts : List Token}
    (hp : (Token.ident raw name extent).Proper) (h : isName (.ident raw name extent :: ts)) :
    IsItemName name := by
  cases hp with
  | ident identifier rawable =>
    refine ⟨identifier, ?_⟩
    cases raw with
    | true =>
      have hn := rawable rfl
      simp only [Token.neverRaw, String.ofList_toList, List.contains_iff_mem] at hn
      simp_all
    | false =>
      simp only [isName, Bool.false_or, Bool.not_eq_true', reserved] at h
      simp_all

theorem name_gives : Gives P b name IsItemName :=
  nameIf_gives fun _ _ _ _ => isItemName_of_isName

/-- A reserved word may pass as a name. -/
theorem nameOrWord_gives (word : String) (h : word ∉ ["crate", "self", "super", "Self"]) :
    Gives P b (nameIf fun ts => isName ts || isWord word ts) IsItemName := by
  apply nameIf_gives
  intro raw name extent ts hp ht
  rw [Bool.or_eq_true] at ht
  rcases ht with ht | ht
  · exact isItemName_of_isName hp ht
  · cases hp with
    | ident identifier =>
      refine ⟨identifier, ?_⟩
      cases raw with
      | true => cases ht
      | false =>
        simp only [isWord, decide_eq_true_eq] at ht
        rw [ht]
        exact h

@[spec low] theorem nameIf_keeps (test : List Token → Bool) : Keeps P b (nameIf test) := by
  mvcgen [nameIf]

@[spec low] theorem name_keeps : Keeps P b name := name_gives.keeps

@[spec] theorem lifetime_keeps : Keeps P b lifetime := by
  mvcgen [lifetime]

@[spec] theorem lifetime?_keeps : Keeps P b lifetime? := by
  mvcgen [lifetime?]

@[spec] theorem literal_keeps : Keeps P b literal := by
  mvcgen [literal]
  rename_i s hs _ e spelling f rest h _ _ _
  refine hs.step [_, _] [_] ⟨h, Array.toList_push⟩ (fun _ => ?_) hs.found
  exact ⟨rfl, rfl⟩

@[spec] theorem remaining_keeps : Keeps P b remaining := by
  mvcgen [remaining]
  rename_i s hs
  exact hs.step _ _ ⟨(List.append_nil _).symm, by simp⟩ (fun _ => .refl _) hs.found

@[spec] theorem anyGroup_keeps : Keeps P b anyGroup := by
  mvcgen [anyGroup]

/-! ### Readers around readers -/

/-- What is written in a group makes no difference to where the group begins and ends. -/
theorem inGroup_gives {delimiter : Delimiter} {p : Reader α} {Q : α → Prop}
    (h : ∀ b : Reading source, b.exact = false → Gives P b p Q) : Gives P b (inGroup delimiter p) Q := by
  mvcgen [inGroup]
  rename_i s hs d content extent rest hr _ a inside hp _ _ _ _ _
  have hw := hs.within
  rw [hr] at hw
  obtain ⟨hi, hq⟩ := gives_iff.mp (h ⟨⟨content, #[], s.found⟩, false, hw.inside⟩ rfl) _ a inside hp
    (Reading.proper_start _ hs.found)
  refine ⟨hs.step [_] [_] ⟨hr, Array.toList_push⟩ (fun _ => .singleton rfl) hi.found, hq⟩

@[spec low] theorem inGroup_keeps {delimiter : Delimiter} {p : Reader α}
    (h : ∀ b : Reading source, b.exact = false → Keeps P b p) : Keeps P b (inGroup delimiter p) :=
  (inGroup_gives fun b hb => gives_of_keeps (h b hb)).keeps

@[spec] theorem parenthesized_keeps {p : Reader α} (h : ∀ b : Reading source, b.exact = false → Keeps P b p) :
    Keeps P b (parenthesized p) :=
  inGroup_keeps h

@[spec] theorem bracketed_keeps {p : Reader α} (h : ∀ b : Reading source, b.exact = false → Keeps P b p) :
    Keeps P b (bracketed p) :=
  inGroup_keeps h

@[spec low] theorem braced_keeps {p : Reader α} (h : ∀ b : Reading source, b.exact = false → Keeps P b p) :
    Keeps P b (braced p) :=
  inGroup_keeps h

theorem exists_of_collecting {p : Reader α} {s s' : ReaderState} {r : α × List Declaration}
    (h : collecting p s = some (r, s')) :
    ∃ t, p { s with found := #[] } = some (r.1, t) ∧ r.2 = t.found.toList ∧ s' = { t with found := s.found } := by
  change (p { s with found := #[] } >>= fun r =>
    some ((r.1, r.2.found.toList), { r.2 with found := s.found })) = _ at h
  obtain ⟨⟨a, t⟩, hp, h⟩ := Option.bind_eq_some_iff.mp h
  cases h
  exact ⟨t, hp, rfl, rfl⟩

/-- What is found meanwhile may have another property than what was found before. -/
theorem collecting_gives {p : Reader α} {Q : α → Prop} {R : Declaration → Prop} (h : Gives R b p Q) :
    Gives P b (collecting p) (fun r => Q r.1 ∧ ∀ d ∈ r.2, R d) := by
  rw [gives_iff] at h ⊢
  intro s r s' he hs
  obtain ⟨t, hp, hr₂, rfl⟩ := exists_of_collecting he
  obtain ⟨read, wrote, ⟨hr, hw⟩, hc⟩ := hs.passed
  obtain ⟨ht, hq⟩ := h _ _ t hp ⟨by simp, read, wrote, ⟨hr, hw⟩, hc⟩
  obtain ⟨read, wrote, ⟨hr, hw⟩, hc⟩ := ht.passed
  exact ⟨⟨hs.found, read, wrote, ⟨hr, hw⟩, hc⟩, hq, by simpa [hr₂] using ht.found⟩

theorem collecting_keeps {p : Reader α} (h : Keeps P b p) : Keeps P b (collecting p) :=
  (collecting_gives (gives_of_keeps h)).keeps

theorem exists_of_capturing {p : Reader α} {s s' : ReaderState} {r : α × List Token}
    (h : capturing p s = some (r, s')) :
    ∃ t, p { s with written := #[] } = some (r.1, t) ∧ r.2 = t.written.toList ∧
      s' = { t with written := s.written } := by
  change (p { s with written := #[] } >>= fun r =>
    some ((r.1, r.2.written.toList), { r.2 with written := s.written })) = _ at h
  obtain ⟨⟨a, t⟩, hp, h⟩ := Option.bind_eq_some_iff.mp h
  cases h
  exact ⟨t, hp, rfl, rfl⟩

/-- What a reader writes is captured, with the rest of what it does left as it is. -/
private theorem exists_read_of_capturing {p : Reader α} {Q : α → Prop} (h : ∀ b : Reading source, Gives P b p Q)
    {s s' : ReaderState} {r : α × List Token} (he : capturing p s = some (r, s'))
    (within : Token.Within source.tokens s.rest) (found : ∀ d ∈ s.found, P d) :
    ∃ read, s.Passage s' read [] ∧ Token.Covers read r.2 ∧ (∀ d ∈ s'.found, P d) ∧ Q r.1 := by
  obtain ⟨t, hp, hr₂, rfl⟩ := exists_of_capturing he
  obtain ⟨ht, hq⟩ := gives_iff.mp (h ⟨{ s with written := #[] }, true, within⟩) _ _ t hp
    (Reading.proper_start _ found)
  obtain ⟨read, wrote, ⟨hr, hw⟩, hc⟩ := ht.passed
  rw [List.nil_append] at hw
  exact ⟨read, ⟨hr, (List.append_nil _).symm⟩, hr₂ ▸ hw ▸ hc rfl, ht.found, hq⟩

/-- What was captured is still to be written. -/
theorem capturing_gives {p : Reader α} {Q : α → Prop} (h : ∀ b : Reading source, Gives P b p Q) :
    ⦃fun s => ⌜s.Proper P b⌝⦄ capturing p
      ⦃⇓? r s => ⌜({ s with written := s.written ++ r.2 } : ReaderState).Proper P b ∧ Q r.1⌝⦄ := by
  rw [triple_iff]
  intro s r s' he hs
  obtain ⟨read, hp, hc, hf, hq⟩ := exists_read_of_capturing h he hs.within hs.found
  exact ⟨hs.step _ _ ⟨hp.rest, by simp [hp.written]⟩ (fun _ => hc) hf, hq⟩

theorem write_captured (ts : List Token) :
    ⦃fun s => ⌜({ s with written := s.written ++ ts } : ReaderState).Proper P b⌝⦄ write ts
      ⦃⇓? _ s => ⌜s.Proper P b⌝⦄ := by
  rw [triple_iff]
  rintro s a s' h hs
  cases h
  exact hs

/-- Where it makes no difference what is written, it need not be written. -/
@[spec low] theorem capturing_keeps {p : Reader α} (hb : b.exact = false) (h : ∀ b : Reading source, Keeps P b p) :
    Keeps P b (capturing p) := by
  rw [keeps_iff]
  intro s r s' he hs
  obtain ⟨read, hp, -, hf, -⟩ := exists_read_of_capturing (fun b => gives_of_keeps (h b)) he hs.within hs.found
  exact hs.step _ _ hp (by simp [hb]) hf

@[spec] theorem write_keeps (hb : b.exact = false) (ts : List Token) : Keeps P b (write ts) := by
  rw [keeps_iff]
  rintro s a s' h hs
  cases h
  exact hs.step [] ts ⟨rfl, by simp⟩ (by simp [hb]) hs.found

/-- What is written has the span of what is read. -/
theorem exists_read_of_spanning {p : Reader α} {Q : α → Prop} (h : ∀ b : Reading source, Gives P b p Q)
    {s s' : ReaderState} {r : α × Extent} (he : spanning p s = some (r, s'))
    (within : Token.Within source.tokens s.rest) (found : ∀ d ∈ s.found, P d) :
    ∃ read wrote, s.Passage s' read wrote ∧ Token.Covers read wrote ∧ r.2 = Token.span read ∧
      (∀ d ∈ s'.found, P d) ∧ Q r.1 := by
  obtain ⟨⟨a, ts⟩, t, hc, he⟩ := bind_eq_some_iff.mp he
  obtain ⟨read, ⟨hr, hw⟩, hcover, hf, hq⟩ := exists_read_of_capturing h hc within found
  cases he
  refine ⟨read, ts, ⟨hr, ?_⟩, hcover, hcover.span_eq, hf, hq⟩
  simp [hw]

theorem take_length_sub {s s' : ReaderState} {read wrote : List Token} (h : s.Passage s' read wrote) :
    s.rest.take (s.rest.length - s'.rest.length) = read := by
  rw [h.rest, List.length_append, Nat.add_sub_cancel, List.take_left]

theorem extract_written {s s' : ReaderState} {read wrote : List Token} (h : s.Passage s' read wrote) :
    (s'.written.extract s.written.size).toList = wrote := by
  rw [Array.toList_extract, List.extract_eq_take_drop, ← Array.length_toList, ← Array.length_toList, h.written,
    List.drop_left, List.length_append, Nat.add_sub_cancel_left, List.take_length]

theorem exists_of_verbatim {p : Reader α} {s s' : ReaderState} {a : α} (h : verbatim p s = some (a, s')) :
    ∃ t, p s = some (a, t) ∧ s' = { s with
      rest := t.rest
      written := s.written ++ s.rest.take (s.rest.length - t.rest.length) } := by
  change (p s >>= fun r => some (r.1, { s with
    rest := r.2.rest
    written := s.written ++ s.rest.take (s.rest.length - r.2.rest.length) })) = _ at h
  obtain ⟨⟨a, t⟩, hp, h⟩ := Option.bind_eq_some_iff.mp h
  cases h
  exact ⟨t, hp, rfl⟩

/-- What is kept as it stands counts as not found, whatever it has in it. -/
theorem verbatim_keeps_of {p : Reader α} {R : Declaration → Prop} (hR : ∀ d, P d → R d)
    (h : ∀ b : Reading source, Keeps R b p) : Keeps P b (verbatim p) := by
  rw [keeps_iff]
  intro s a s' he hs
  obtain ⟨t, hp, rfl⟩ := exists_of_verbatim he
  obtain ⟨-, read, wrote, hr, -⟩ := keeps_iff.mp (h ⟨s, true, hs.within⟩) s a t hp
    (Reading.proper_start _ fun d hd => hR d (hs.found d hd))
  refine hs.step read read ⟨hr.rest, ?_⟩ (fun _ => .refl _) hs.found
  simp [take_length_sub hr]

@[spec low] theorem verbatim_keeps {p : Reader α} (h : ∀ b : Reading source, Keeps P b p) :
    Keeps P b (verbatim p) :=
  verbatim_keeps_of (fun _ => id) h

theorem attempt_gives {p : Reader α} {Q : α → Prop} (h : Gives P b p Q) :
    Gives P b (attempt p) (fun a? => ∀ a ∈ a?, Q a) := by
  rw [gives_iff] at h
  mvcgen [attempt]
  · rename_i s hs a next hp
    obtain ⟨hn, hq⟩ := h s a next hp hs
    exact ⟨hn, by simpa using hq⟩
  · simp_all

@[spec low] theorem attempt_keeps {p : Reader α} (h : Keeps P b p) : Keeps P b (attempt p) :=
  (attempt_gives (gives_of_keeps h)).keeps

/-! ### Progress -/

/-- A reader reads a token at least. -/
def Moves (source : TokenSource) (P : Declaration → Prop) (p : Reader α) : Prop :=
  ∀ (b : Reading source) s a s', p s = some (a, s') → s.Proper P b → s'.rest.length < s.rest.length

/-- Where a reader is, in a reading that begins with it. -/
theorem proper_of_keeps {p : Reader α} (h : ∀ b : Reading source, Keeps P b p) {s s' : ReaderState} {a : α}
    (hp : p s = some (a, s')) (hf : ∀ d ∈ s.found, P d) (exact : Bool) (within : Token.Within source.tokens s.rest) :
    s'.Proper P ⟨s, exact, within⟩ :=
  keeps_iff.mp (h _) s a s' hp (Reading.proper_start ⟨s, exact, within⟩ hf)

theorem length_le_of_keeps {p : Reader α} (h : ∀ b : Reading source, b.exact = false → Keeps P b p)
    {s s' : ReaderState} {a : α} (hp : p s = some (a, s')) (hs : s.Proper P b) : s'.rest.length ≤ s.rest.length := by
  obtain ⟨-, read, wrote, hr, -⟩ := keeps_iff.mp (h ⟨s, false, hs.within⟩ rfl) s a s' hp
    (Reading.proper_start _ hs.found)
  exact hr.length_le

namespace Moves
variable {β : Type} {p : Reader α} {f : α → Reader β}

/-- It makes no difference how what is read behind it is written. -/
theorem bind_loosely (h : Moves source P p) (hp : ∀ b : Reading source, Keeps P b p)
    (hf : ∀ a, ∀ b : Reading source, b.exact = false → Keeps P b (f a)) : Moves source P (p >>= f) := by
  intro b s c s' he hs
  obtain ⟨a, t, hpa, he⟩ := bind_eq_some_iff.mp he
  exact Nat.lt_of_le_of_lt (length_le_of_keeps (hf a) he (keeps_iff.mp (hp b) s a t hpa hs)) (h b s a t hpa hs)

theorem bind (h : Moves source P p) (hp : ∀ b : Reading source, Keeps P b p)
    (hf : ∀ a, ∀ b : Reading source, Keeps P b (f a)) : Moves source P (p >>= f) :=
  h.bind_loosely hp fun a b _ => hf a b

theorem behind (hp : ∀ b : Reading source, Keeps P b p) (h : ∀ a, Moves source P (f a)) :
    Moves source P (p >>= f) := by
  intro b s c s' he hs
  obtain ⟨a, t, hpa, he⟩ := bind_eq_some_iff.mp he
  have hm := h a b t c s' he (keeps_iff.mp (hp b) s a t hpa hs)
  exact Nat.lt_of_lt_of_le hm (length_le_of_keeps (fun b _ => hp b) hpa hs)

theorem proper_begun (h : Moves source P p) (hp : ∀ b : Reading source, Keeps P b p) :
    ⦃fun s => ⌜s.Proper P b⌝⦄ p ⦃⇓? _ s => ⌜s.Proper P b ∧ s.Begun P b⌝⦄ := by
  rw [triple_iff]
  intro s a s' he hs
  have hp' := proper_of_keeps hp he hs.found true hs.within
  exact ⟨keeps_iff.mp (hp b) s a s' he hs, hs.begun hp' (h b s a s' he hs)⟩

theorem begins (h : Moves source P p) (hp : ∀ b : Reading source, Keeps P b p) :
    ⦃fun s => ⌜s.Proper P b⌝⦄ p ⦃⇓? _ s => ⌜s.Begun P b⌝⦄ :=
  triple_iff.mpr fun s a s' he hs => (triple_iff.mp (h.proper_begun hp) s a s' he hs).2

theorem ends (h : Moves source P p) (hp : ∀ b : Reading source, Keeps P b p) :
    ⦃fun s => ⌜s.Begun P b⌝⦄ p ⦃⇓? _ s => ⌜s.Proper P b⌝⦄ := by
  rw [triple_iff]
  intro s a s' he hs
  have hw := Reading.proper_start ⟨s, true, hs.within⟩ hs.found
  exact hs.proper (proper_of_keeps hp he hs.found true hs.within) (h _ s a s' he hw)

end Moves

theorem begun_of_keeps {p : Reader α} (h : ∀ b : Reading source, b.exact = false → Keeps P b p) :
    ⦃fun s => ⌜s.Begun P b⌝⦄ p ⦃⇓? _ s => ⌜s.Begun P b⌝⦄ := by
  rw [triple_iff]
  intro s a s' he hs
  have hw := Reading.proper_start ⟨s, false, hs.within⟩ hs.found
  exact hs.loosely (keeps_iff.mp (h _ rfl) s a s' he hw)

/-- A reading that begins where the reader does is enough. -/
theorem keeps_of_start {p : Reader α}
    (h : ∀ b : Reading source, ⦃fun s => ⌜s.Proper P b ∧ s = b.start⌝⦄ p ⦃⇓? _ s => ⌜s.Proper P b⌝⦄) :
    Keeps P b p := by
  rw [keeps_iff]
  intro s a s' he hs
  obtain ⟨hf, read, wrote, hp, hc⟩ := triple_iff.mp (h ⟨s, true, hs.within⟩) s a s' he
    ⟨Reading.proper_start _ hs.found, rfl⟩
  exact hs.step _ _ hp (fun _ => hc rfl) hf

theorem moves_anyToken : Moves source P anyToken := by
  rintro b ⟨rest, written, found⟩ a s' h -
  cases rest with
  | nil => cases h
  | cons t ts =>
    cases h
    simp

theorem moves_mark (text : String) : Moves source P (mark text) := by
  intro b s u s' h _
  obtain ⟨read, wrote, hp, -, -, hn, -⟩ := exists_read_of_mark h
  rw [hp.rest, List.length_append]
  exact Nat.lt_add_of_pos_left (List.length_pos_iff.mpr hn)

theorem moves_word (text : String) : Moves source P (word text) :=
  .behind (fun _ => ahead_keeps _) fun _ => .behind (fun _ => require_keeps _) fun _ =>
    .bind moves_anyToken (fun _ => anyToken_keeps) fun _ _ => by mvcgen

theorem moves_anyName : Moves source P anyName :=
  .bind moves_anyToken (fun _ => anyToken_keeps) fun _ _ => by mvcgen

theorem moves_nameIf (test : List Token → Bool) : Moves source P (nameIf test) :=
  .behind (fun _ => ahead_keeps _) fun _ => .behind (fun _ => require_keeps _) fun _ => moves_anyName

theorem moves_of_length {p : Reader α}
    (h : ∀ n, ⦃fun s => ⌜s.rest.length = n⌝⦄ p ⦃⇓? _ s => ⌜s.rest.length < n⌝⦄) : Moves source P p :=
  fun _ s a s' he _ => triple_iff.mp (h s.rest.length) s a s' he rfl

theorem moves_inGroup (delimiter : Delimiter) (p : Reader α) : Moves source P (inGroup delimiter p) := by
  apply moves_of_length
  intro n
  mvcgen [inGroup, require, -inGroup_keeps, -require_keeps]
  rename_i s hn d content extent rest hr _ _ _ _ _
  rw [← hn, hr]
  exact Nat.lt_succ_self _

theorem Moves.ite {c : Prop} [Decidable c] {p q : Reader α} (hp : Moves source P p) (hq : Moves source P q) :
    Moves source P (if c then p else q) := by
  split
  · exact hp
  · exact hq

theorem moves_lifetime : Moves source P lifetime :=
  .behind (fun _ => ahead_keeps _) fun _ => .behind (fun _ => require_keeps _) fun _ =>
    .bind moves_anyToken (fun _ => anyToken_keeps) fun _ _ => by mvcgen

/-- Where something is read only if it is there, something else must be read if it is not. -/
theorem Moves.optional {test : List Token → Bool} {p : Reader Unit} {q r : Reader α} (hp : Moves source P p)
    (hk : ∀ b : Reading source, Keeps P b p) (hq : ∀ b : Reading source, Keeps P b q) (hr : Moves source P r) :
    Moves source P ((do if ← ahead test then p; return true else return false) >>= fun there =>
      if there then q else r) := by
  intro b s a s' he hs
  obtain ⟨there, t, hb, hqr⟩ := bind_eq_some_iff.mp he
  obtain ⟨_, _, ha, hb⟩ := bind_eq_some_iff.mp hb
  cases ha
  cases ht : test s.rest with
  | true =>
    rw [if_pos ht] at hb
    obtain ⟨u, t, hp', hb⟩ := bind_eq_some_iff.mp hb
    cases hb
    exact hp.bind hk (fun _ => hq) b s a s' (bind_eq_some_iff.mpr ⟨u, t, hp', hqr⟩) hs
  | false =>
    rw [ht] at hb
    cases hb
    exact hr b s a s' hqr hs

theorem Moves.verbatim {p : Reader α} (h : Moves source P p) : Moves source P (verbatim p) := by
  intro b s a s' he hs
  obtain ⟨t, hp, rfl⟩ := exists_of_verbatim he
  exact h b s a t hp hs

theorem Moves.capturing {p : Reader α} (h : Moves source P p) : Moves source P (capturing p) := by
  intro b s r s' he hs
  obtain ⟨t, hp, -, rfl⟩ := exists_of_capturing he
  have hm := h _ _ _ t hp (Reading.proper_start ⟨{ s with written := #[] }, true, hs.within⟩ hs.found)
  exact hm

theorem Moves.spanning {p : Reader α} (h : Moves source P p) : Moves source P (spanning p) := by
  intro b s r s' he hs
  obtain ⟨r, t, hc, he⟩ := bind_eq_some_iff.mp he
  cases he
  exact h.capturing b s r t hc hs

/-- A reader keeps states proper, its value has a property, and it reads a token at least. -/
structure Advances (source : TokenSource) (P : Declaration → Prop) (p : Reader α) (Q : α → Prop) : Prop where
  gives (b : Reading source) : Gives P b p Q
  moves : Moves source P p

namespace Advances
variable {β : Type} {p : Reader α} {f : α → Reader β} {Q : α → Prop} {R : β → Prop}

private theorem gives_bind {p : Reader α} {f : α → Reader β} (hp : Gives P b p Q)
    (hf : ∀ a, Q a → Gives P b (f a) R) : Gives P b (p >>= f) R := by
  rw [gives_iff]
  intro s c s' he hs
  obtain ⟨a, t, hpa, he⟩ := bind_eq_some_iff.mp he
  obtain ⟨ht, hq⟩ := gives_iff.mp hp s a t hpa hs
  exact gives_iff.mp (hf a hq) t c s' he ht

theorem bind (h : Advances source P p Q) (hf : ∀ a, Q a → ∀ b : Reading source, Gives P b (f a) R) :
    Advances source P (p >>= f) R where
  gives b := gives_bind (h.gives b) fun a ha => hf a ha b
  moves := by
    intro b s c s' he hs
    obtain ⟨a, t, hpa, he⟩ := bind_eq_some_iff.mp he
    obtain ⟨ht, hq⟩ := gives_iff.mp (h.gives b) s a t hpa hs
    exact Nat.lt_of_le_of_lt (length_le_of_keeps (fun b _ => (hf a hq b).keeps) he ht) (h.moves b s a t hpa hs)

theorem behind (hp : ∀ b : Reading source, Keeps P b p) (hf : ∀ a, Advances source P (f a) R) :
    Advances source P (p >>= f) R where
  gives b := gives_bind (gives_of_keeps (hp b)) fun a _ => (hf a).gives b
  moves := .behind hp fun a => (hf a).moves

theorem map {f : α → β} (h : Advances source P p Q) (hf : ∀ a, Q a → R (f a)) :
    Advances source P (f <$> p) R := by
  rw [map_eq_pure_bind]
  refine h.bind fun a ha b => ?_
  have := hf a ha
  mvcgen

theorem ite {c : Prop} [Decidable c] {p q : Reader α} (hp : Advances source P p Q) (hq : Advances source P q Q) :
    Advances source P (if c then p else q) Q := by
  split
  · exact hp
  · exact hq

end Advances

theorem word_advances (text : String) : Advances source P (word text) fun _ => True :=
  ⟨fun _ => gives_of_keeps (word_keeps text), moves_word text⟩

theorem mark_advances (text : String) : Advances source P (mark text) fun _ => True :=
  ⟨fun _ => gives_of_keeps (mark_keeps text), moves_mark text⟩

/-! ### Repetition -/

private theorem iterateUpTo_keeps {step : σ → Reader (Bool × σ)} (h : ∀ s, Keeps P b (step s)) (fuel : Nat)
    (s : σ) : Keeps P b (iterateUpTo fuel step s) := by
  induction fuel generalizing s with
  | zero => mvcgen [iterateUpTo]
  | succ fuel ih => mvcgen [iterateUpTo, h, ih]

@[spec] theorem iterate_keeps {step : σ → Reader (Bool × σ)} {s : σ} (h : ∀ s, Keeps P b (step s)) :
    Keeps P b (iterate step s) := by
  have hi := iterateUpTo_keeps h
  mvcgen [iterate, hi]

theorem moves_iterate {step : σ → Reader (Bool × σ)} (h : ∀ s, Moves source P (step s))
    (hk : ∀ s, ∀ b : Reading source, Keeps P b (step s)) (s : σ) : Moves source P (iterate step s) := by
  intro b t a t' he ht
  obtain ⟨_, _, hg, he⟩ := bind_eq_some_iff.mp he
  cases hg
  refine (h s).bind (hk s) (fun r b => ?_) b t a t' he ht
  have hi := iterateUpTo_keeps (b := b) fun s => hk s b
  mvcgen [hi]

theorem iterate_begun {step : σ → Reader (Bool × σ)} {s : σ}
    (h : ∀ b : Reading source, b.exact = false → ∀ s, Keeps P b (step s)) :
    ⦃fun s => ⌜s.Begun P b⌝⦄ iterate step s ⦃⇓? _ s => ⌜s.Begun P b⌝⦄ :=
  begun_of_keeps fun b hb => iterate_keeps (h b hb)

@[spec] theorem repeating_keeps {step : Reader Bool} (h : Keeps P b step) : Keeps P b (repeating step) := by
  mvcgen [repeating, h]

@[spec] theorem untilEnd_keeps {p : Reader Unit} (h : Keeps P b p) : Keeps P b (untilEnd p) := by
  mvcgen [untilEnd, h]

@[spec] theorem separated_keeps {separator : String} {p : Reader Unit} (h : Keeps P b p) :
    Keeps P b (separated separator p) := by
  mvcgen [separated, h]

end Reader
end GeneratorHost
