import GeneratorHost.Generator.Marker
import GeneratorHost.Proofs.Grammar.Skips

/-! The marker attribute leaves type declarations alone, and with them every other item that has one of their words as a
name outside brackets. -/
namespace GeneratorHost.Marker

variable {ts : List Token}

/-- The word of a type declaration stands for something else: any name may be `union`, and that of a lifetime may be any
word. -/
def NamesTypeWord (ts : List Token) : Prop :=
  (∃ extent, .ident false "union" extent ∈ ts) ∨
    ∃ name ∈ ["struct", "enum"], ∃ e f, [.punct Token.apostrophe true e, .ident false name f] <:+: ts

theorem NamesTypeWord.suffix {us : List Token} (h : NamesTypeWord ts) (hs : ts <:+ us) : NamesTypeWord us := by
  obtain ⟨extent, hu⟩ | ⟨name, hn, e, f, hi⟩ := h
  · exact .inl ⟨extent, hs.mem hu⟩
  · exact .inr ⟨name, hn, e, f, hi.trans hs.isInfix⟩

/-! ### Words among tokens -/

theorem declaresType_iff :
    declaresType ts ↔ ∃ name ∈ ["struct", "enum", "union"], ∃ extent, .ident false name extent ∈ ts := by
  rw [declaresType, List.any_eq_true]
  constructor
  · rintro ⟨t, ht, hw⟩
    split at hw
    · exact ⟨_, List.contains_iff_mem.mp hw, _, ht⟩
    · cases hw
  · rintro ⟨name, hn, extent, ht⟩
    exact ⟨_, ht, List.contains_iff_mem.mpr hn⟩

theorem declaresType_of_namesTypeWord (h : NamesTypeWord ts) : declaresType ts := by
  rw [declaresType_iff]
  obtain ⟨extent, hu⟩ | ⟨name, hn, e, f, hi⟩ := h
  · exact ⟨"union", by decide, extent, hu⟩
  · exact ⟨name, List.mem_append_left ["union"] hn, f, hi.subset (by simp)⟩

theorem exists_ident_of_isWord {text : String} (h : Reader.isWord text ts) :
    ∃ extent, .ident false text extent ∈ ts := by
  unfold Reader.isWord at h
  split at h
  · obtain rfl := decide_eq_true_eq.mp h
    exact ⟨_, List.mem_cons_self⟩
  · cases h

theorem declaresType_of_hasTypeWord (h : Beginning.HasTypeWord ⟨ts⟩) : declaresType ts := by
  obtain ⟨read, rest, rfl, h⟩ := h
  have hw : ∃ name ∈ ["struct", "enum", "union"], Reader.isWord name rest := by
    simpa [startsType, or_assoc] using h
  obtain ⟨name, hn, hw⟩ := hw
  obtain ⟨extent, ht⟩ := exists_ident_of_isWord hw
  exact declaresType_iff.mpr ⟨name, hn, extent, List.mem_append_right read ht⟩

private theorem mem_or_eq_union {name : String} (h : name ∈ ["struct", "enum", "union"]) :
    name ∈ ["struct", "enum"] ∨ name = "union" :=
  (List.mem_append (s := ["struct", "enum"])).mp h |>.imp_right List.mem_singleton.mp

/-- Where no struct or enum begins, its word is the name of a lifetime. -/
theorem namesTypeWord_of_typeless (h : Typeless ts) (hd : declaresType ts) : NamesTypeWord ts := by
  obtain ⟨name, hn, extent, ht⟩ := declaresType_iff.mp hd
  clear hd
  induction h with
  | nil => cases ht
  | @lifetime e f raw lifetime ts _ ih =>
    simp only [List.mem_cons, reduceCtorEq, Token.ident.injEq, false_or] at ht
    obtain ⟨rfl, rfl, rfl⟩ | ht := ht
    · obtain hn | rfl := mem_or_eq_union hn
      · exact .inr ⟨name, hn, e, extent, [], ts, rfl⟩
      · exact .inl ⟨extent, by simp⟩
    · exact (ih ht).suffix ⟨[_, _], rfl⟩
  | @cons t ts hs _ ih =>
    obtain rfl | ht := List.mem_cons.mp ht
    · obtain hn | rfl := mem_or_eq_union hn
      · simp_all [startsType, Reader.isWord]
      · exact .inl ⟨extent, List.mem_cons_self⟩
    · exact (ih ht).suffix ⟨[_], rfl⟩

/-! ### Items -/

/-- Tokens that parse as an item are found as one declaration. The word of a type is among them if it is one, and else
as a name only. -/
theorem exists_found_of_parseAll {r : Unit × ReaderState} (h : Grammar.parseAll Grammar.item ts = some r) :
    ∃ d, r.2.found = #[d] ∧ (declaresType ts ↔ d.head.kind.isClassLike ∨ NamesTypeWord ts) := by
  unfold Grammar.parseAll at h
  split at h
  · rename_i u s hi
    split at h
    · rename_i he
      cases h
      obtain ⟨d, hf, ⟨hd, hw⟩ | ⟨hd, read, hr, ht⟩⟩ := Grammar.exists_found_of_item hi
      · exact ⟨d, hf, iff_of_true (declaresType_of_hasTypeWord hw) (.inl hd)⟩
      · obtain rfl : ts = read := by simpa [List.isEmpty_iff.mp he] using hr
        refine ⟨d, hf, fun hw => .inr (namesTypeWord_of_typeless ht hw), fun hn => ?_⟩
        exact declaresType_of_namesTypeWord (hn.resolve_left hd)
    · cases h
  · cases h

/-! ### What becomes of an item -/

theorem failure_append_ne (message : String) (ts : List Token) : failure message ++ ts ≠ ts := by
  rw [Ne, List.append_left_eq_self]
  exact List.cons_ne_nil _ _

variable {arguments : List Token}

/-- Tokens are left alone, or an error with one of two messages is put in front of them. -/
theorem expand_eq (arguments ts : List Token) :
    expand arguments ts = ts ∧ arguments = [] ∧ declaresType ts ∨
      expand arguments ts = failure (if arguments = [] then typesOnly else takesNothing) ++ ts ∧
        ¬ (arguments = [] ∧ declaresType ts) := by
  unfold expand
  cases arguments with
  | nil => cases declaresType ts <;> simp
  | cons => simp

theorem expand_eq_self_iff : expand arguments ts = ts ↔ arguments = [] ∧ declaresType ts := by
  obtain ⟨he, hd⟩ | ⟨he, hd⟩ := expand_eq arguments ts
  · exact iff_of_true he hd
  · exact iff_of_false (he ▸ failure_append_ne _ ts) hd

theorem exists_message_iff : (∃ message, expand arguments ts = failure message ++ ts) ↔ expand arguments ts ≠ ts := by
  constructor
  · rintro ⟨message, he⟩
    exact he ▸ failure_append_ne message ts
  · intro hne
    obtain ⟨he, -⟩ | ⟨he, -⟩ := expand_eq arguments ts
    · exact absurd he hne
    · exact ⟨_, he⟩

/-- Of all items just structs, enums and unions are left alone, where the attribute has no arguments; anything else
stands behind an error. -/
def Exact (arguments ts : List Token) (d : Declaration) : Prop :=
  if arguments = [] ∧ d.head.kind.isClassLike then expand arguments ts = ts
  else ∃ message, expand arguments ts = failure message ++ ts

/-- The attribute is exact but for items that are no types and have the word of one as a name. Those it leaves alone as
well. -/
theorem exact_iff {r : Unit × ReaderState} (h : Grammar.parseAll Grammar.item ts = some r) :
    ∃ d, r.2.found = #[d] ∧ ∀ arguments,
      (Exact arguments ts d ↔ (arguments = [] → NamesTypeWord ts → d.head.kind.isClassLike)) ∧
      (expand arguments ts = ts ↔ arguments = [] ∧ (d.head.kind.isClassLike ∨ NamesTypeWord ts)) ∧
      (expand arguments ts = ts ∨
        expand arguments ts = failure (if arguments = [] then typesOnly else takesNothing) ++ ts) := by
  obtain ⟨d, hf, hd⟩ := exists_found_of_parseAll h
  refine ⟨d, hf, fun arguments => ⟨?_, ?_, ?_⟩⟩
  · unfold Exact
    rw [exists_message_iff, Ne, expand_eq_self_iff, hd]
    grind
  · rw [expand_eq_self_iff, hd]
  · exact (expand_eq arguments ts).imp And.left And.left

/-- A function, `fn union() {}`. -/
def unionFunction : List Token :=
  [.word "fn", .word "union", .group .parenthesis [] default, .group .brace [] default]

theorem exists_unionFunction :
    ∃ r d, Grammar.parseAll Grammar.item unionFunction = some r ∧ r.2.found = #[d] ∧ d.head.kind = .fn := by
  have hk : (Grammar.parseAll Grammar.item unionFunction).map (·.2.found.toList.map (·.head.kind)) = some [.fn] := by
    decide
  obtain ⟨r, hr, hk⟩ := Option.map_eq_some_iff.mp hk
  obtain ⟨d, hd, -⟩ := exists_found_of_parseAll hr
  rw [hd] at hk
  exact ⟨r, d, hr, hd, by simpa using hk⟩

/-- It is no type, and left alone for its name. -/
theorem not_exact_everywhere :
    ¬ ∀ ts r d, Grammar.parseAll Grammar.item ts = some r → r.2.found = #[d] → ∀ arguments, Exact arguments ts d := by
  intro h
  obtain ⟨r, d, hr, hd, hk⟩ := exists_unionFunction
  have he := h unionFunction r d hr hd []
  rw [Exact, if_neg (by simp [hk, Kind.isClassLike])] at he
  exact exists_message_iff.mp he rfl

theorem exact_iff_unionFunction :
    ∃ r d, Grammar.parseAll Grammar.item unionFunction = some r ∧ r.2.found = #[d] ∧
      ¬ Exact [] unionFunction d ∧ Exact unionFunction unionFunction d := by
  obtain ⟨r, d, hr, hd, hk⟩ := exists_unionFunction
  obtain ⟨e, he, h⟩ := exact_iff hr
  obtain rfl : d = e := by simpa [hd] using he
  refine ⟨r, d, hr, hd, ?_, (h unionFunction).1.mpr fun he => absurd he (List.cons_ne_nil _ _)⟩
  rw [(h []).1]
  intro hn
  have hk' := hn rfl (.inl ⟨default, by simp [unionFunction, Token.word]⟩)
  simp [hk, Kind.isClassLike] at hk'

end GeneratorHost.Marker
