import GeneratorHost.Proofs.Grammar.Items
import GeneratorHost.Proofs.Index.Candidates
import GeneratorHost.Proofs.Token.Places

/-! Records and the source of their declarations: offsets and texts are exact except behind a byte order mark. -/
namespace GeneratorHost
open Text

/-! ### What stands in front of the content of a file -/

namespace SourceFile

/-- A text that begins with a byte order mark. -/
def IsMarked (text : List Char) : Prop := ∃ c ∈ text.head?, c.toNat = 0xfeff

private theorem exists_mark (text : List Char) :
    ∃ mark, text = mark ++ unmarked text ∧ '\n' ∉ mark ∧ (mark ≠ [] ↔ IsMarked text) := by
  cases text with
  | nil => exact ⟨[], rfl, List.not_mem_nil, by simp [IsMarked]⟩
  | cons c rest =>
    rw [unmarked]
    by_cases hc : c.toNat = 0xfeff
    · refine ⟨[c], by rw [if_pos hc]; rfl, ?_, by simp [IsMarked, hc]⟩
      rw [List.mem_singleton]
      rintro rfl
      cases hc
    · exact ⟨[], by rw [if_neg hc]; rfl, List.not_mem_nil, by simp [IsMarked, hc]⟩

/-- If a line is left off, what follows is empty or begins behind the end of that line. -/
private theorem exists_line (cs : List Char) :
    ∃ line, cs = line ++ behindInterpreter cs ∧ '\n' ∉ line ∧
      (line ≠ [] → ∀ c ∈ (behindInterpreter cs).head?, c = '\n') := by
  have hline : ∃ line, cs = line ++ cs.dropWhile (· ≠ '\n') ∧ '\n' ∉ line ∧
      (line ≠ [] → ∀ c ∈ (cs.dropWhile (· ≠ '\n')).head?, c = '\n') := by
    refine ⟨_, List.takeWhile_append_dropWhile.symm, fun h => ?_, fun _ c hc => ?_⟩
    · simpa using List.all_eq_true.mp List.all_takeWhile _ h
    · have hd := List.head?_dropWhile_not (· ≠ '\n') cs
      rw [hc] at hd
      simpa using hd
  have hall : ∃ line, cs = line ++ cs ∧ '\n' ∉ line ∧ (line ≠ [] → ∀ c ∈ cs.head?, c = '\n') :=
    ⟨[], rfl, List.not_mem_nil, fun h => absurd rfl h⟩
  unfold behindInterpreter
  split
  · split
    · exact hall
    · exact hline
  · exact hall

/-- In front of the content of a file stands a part of its first line. If it is no byte order mark it is all of it. -/
theorem exists_skipped (text : List Char) :
    ∃ skipped, text = skipped ++ content text ∧ '\n' ∉ skipped ∧ (IsMarked text → skipped ≠ []) ∧
      (skipped ≠ [] → IsMarked text ∨ ∀ c ∈ (content text).head?, c = '\n') := by
  obtain ⟨mark, hm, hmark, hiff⟩ := exists_mark text
  obtain ⟨line, hl, hline, hhead⟩ := exists_line (unmarked text)
  refine ⟨mark ++ line, ?_, ?_, fun h => ?_, fun h => ?_⟩
  · rw [List.append_assoc, content, ← hl, ← hm]
  · rw [List.mem_append, not_or]
    exact ⟨hmark, hline⟩
  · simp [hiff.mpr h]
  · by_cases hn : mark = []
    · subst hn
      exact .inr (hhead h)
    · exact .inl (hiff.mp hn)

end SourceFile

/-! ### Declarations in a text -/

theorem Token.Within.exists_row {cs : List Char} {tokens ts : List Token} (h : Within tokens ts) {a b : Nat}
    (ht : Row cs a b tokens) : ∃ a b, Row cs a b ts := by
  induction h with
  | all => exact ⟨a, b, ht⟩
  | behind _ ih =>
    obtain ⟨_, b, hr⟩ := ih
    cases hr with
    | cons _ _ tail => exact ⟨_, b, tail⟩
  | inside _ ih =>
    obtain ⟨_, _, hr⟩ := ih
    cases hr with
    | cons _ head _ => exact head.row_content

namespace Declaration

/-- Tokens that a declaration is read from stand one behind the other. -/
theorem ReadFrom.exists_within (source : TokenSource) {own : List Token} {d : Declaration}
    (h : d.ReadFrom source.tokens own) : ∃ rest, Token.Within source.tokens (own ++ rest) := by
  cases h with
  | all _ _ within rest => exact ⟨_, rest ▸ within⟩
  | @behind _ _ s' t t' _ _ within visibility front rest =>
    have ht' := Reader.keeps_iff.mp (Grammar.visibility_keeps (P := fun _ => True)) t _ t' visibility
      (Reading.proper_start ⟨t, true, front ▸ within⟩ fun _ _ => trivial)
    exact ⟨s'.rest, rest ▸ ht'.within⟩

/-- The tokens that a declaration covers begin and end at two characters of the text that they were read from. -/
theorem Located.exists_between {cs : List Char} {tokens : List Token} {d : Declaration} (hd : d.Located tokens)
    (ht : Token.ofChars? cs = some tokens) :
    ∃ own i j, d.ReadFrom tokens own ∧ i ≤ j ∧ Token.Between cs i j own ∧ d.extent = Token.stretch cs i j := by
  cases hd with
  | @mk _ own read nonempty extent =>
    obtain ⟨_, within⟩ := ReadFrom.exists_within ⟨tokens, Token.ofChars?_proper ht⟩ read
    obtain ⟨_, hrow⟩ := Token.exists_row_of_ofChars? ht
    obtain ⟨_, _, hrow⟩ := within.exists_row hrow
    obtain ⟨i, j, -, hij, hbetween⟩ := hrow.exists_between nonempty
    exact ⟨own, i, j, read, hij, hbetween, extent.trans hbetween.span_eq⟩

/-- The source of a declaration in the text of a file: a production reads tokens of the content of the file as the
declaration, and what stands from the first character of the first of them to the last character of the last. -/
inductive HasSource (text before source : List Char) (d : Declaration) : Prop
  | mk {tokens own : List Token} {skipped : List Char} {i j : Nat} (skips : text = skipped ++ SourceFile.content text)
      (lexed : Token.ofChars? (SourceFile.content text) = some tokens) (read : d.ReadFrom tokens own)
      (between : Token.Between (SourceFile.content text) i j own)
      (behind : before = skipped ++ (SourceFile.content text).take i)
      (covered : source = ((SourceFile.content text).take j).drop i)

variable {text : List Char} {d : Declaration}

/-- In a marked text no declaration stands at the very start. -/
theorem HasSource.before_ne_nil {before source : List Char} (h : d.HasSource text before source)
    (hm : SourceFile.IsMarked text) : before ≠ [] := by
  cases h with
  | @mk _ _ skipped _ _ skips lexed read between behind covered =>
    obtain ⟨skipped', hs, -, hmarked, -⟩ := SourceFile.exists_skipped text
    obtain rfl := List.append_cancel_right (skips.symm.trans hs)
    rw [behind]
    exact List.append_ne_nil_of_left_ne_nil (hmarked hm) _

/-- No token begins at the end of a line. -/
private theorem newline_mem_take {cs : List Char} {i j : Nat} {own : List Token} (h : Token.Between cs i j own)
    (hcs : ∀ c ∈ cs.head?, c = '\n') : '\n' ∈ cs.take i := by
  obtain ⟨_, _, -, hfirst⟩ := h.first
  obtain ⟨c, rest, hd, hc⟩ := hfirst.exists_cons
  cases cs with
  | nil => simp at hd
  | cons c' cs =>
    obtain rfl := hcs c' rfl
    cases i with
    | zero =>
      cases hd
      exact absurd rfl hc
    | succ i => simp

/-- The offsets of a declaration are those of its source unless it begins in a line that a byte order mark is in. -/
theorem Located.exists_source {tokens : List Token} (hd : d.Located tokens)
    (ht : Token.ofChars? (SourceFile.content text) = some tokens) :
    ∃ before source rest, text = before ++ (source ++ rest) ∧ d.HasSource text before source ∧
      ∀ tree : SourceTree, tree.text.toList = text →
        ((tree.offset d.extent.start = byteCount before ∧ tree.offset d.extent.stop = byteCount (before ++ source)) ↔
          (SourceFile.IsMarked text → '\n' ∈ before)) := by
  obtain ⟨own, i, j, read, hij, hbetween, extent⟩ := hd.exists_between ht
  obtain ⟨skipped, hskipped, hline, hmarked, hhead⟩ := SourceFile.exists_skipped text
  have hsource : d.HasSource text _ _ := .mk hskipped ht read hbetween rfl rfl
  generalize SourceFile.content text = cs at hskipped hbetween extent hhead hsource
  have hj : cs.take i ++ (cs.take j).drop i = cs.take j := by
    have := List.take_append_drop i (cs.take j)
    rwa [List.take_take, Nat.min_eq_left hij] at this
  have htext : text = skipped ++ (cs.take i ++ (cs.take j).drop i) ++ cs.drop j := by
    rw [hj, List.append_assoc, List.take_append_drop, hskipped]
  rw [Token.stretch, Token.placeAt, Token.placeAt, ← hj] at extent
  refine ⟨_, _, cs.drop j, by simpa using htext, hsource, fun tree htree => ?_⟩
  rw [extent, List.mem_append, or_iff_right hline]
  refine (tree.range_eq_iff (htree.trans htext) hline).trans ?_
  constructor
  · rintro (rfl | h) hm
    · exact absurd rfl (hmarked hm)
    · exact h
  · intro h
    by_cases hs : skipped = []
    · exact .inl hs
    · exact .inr ((hhead hs).elim h (newline_mem_take hbetween))

/-- What is nested in a declaration covers the tokens that it is read from if the declaration does. -/
theorem Located.of_mem_nested {tokens : List Token} {inHeader inBody : Head → Bool} {scope : String}
    (hd : d.Located tokens) {x : String × Declaration} (hx : x ∈ d.nested inHeader inBody scope) :
    x.2.Located tokens := by
  induction hd generalizing scope with
  | mk read nonempty extent header body ih_header ih_body =>
    obtain rfl | ⟨e, he | he, _, hx⟩ := eq_or_exists_of_mem_nested hx
    · exact .mk read nonempty extent header body
    · exact ih_header e he hx
    · exact ih_body e he hx

end Declaration

/-! ### Records -/

namespace Record
open Index

/-- A record is made from a declaration whose source stands behind some of the text of its tree. -/
inductive HasSource (r : Record) (before source : List Char) : Prop
  | mk {t : ScopeTable} {s : Surroundings} {d : Declaration} (made : r = record t r.node.tree s r.node.index d)
      (found : d.HasSource r.node.tree.text.toList before source)

/-- The range of a record is that of a source behind some text, and its text is that source. -/
structure Quotes (r : Record) (before source : List Char) : Prop where
  start : r.node.start = byteCount before
  stop : r.node.stop = byteCount (before ++ source)
  text : r.node.text = String.ofList source

end Record

namespace DeclarationIndex
open Index Declaration

variable {c : HostCompilation} {support : SupportModule} {r : Record}

/-- Every record but those of whole files has a source. It quotes this source exactly unless the source begins in a line
that a byte order mark is in. -/
theorem quotes_source_iff (hr : r ∈ (build c support).records) (hp : r.node.parent? ≠ none) :
    ∃ before source, r.HasSource before source ∧
      (r.Quotes before source ↔ (SourceFile.IsMarked r.node.tree.text.toList → '\n' ∈ before)) := by
  obtain ⟨h, -⟩ | ⟨s, d, p, hps, file, hf, made⟩ := exists_recordedFrom_of_parent? hr
  · exact absurd h hp
  obtain ⟨tree, -, rfl⟩ := List.mem_map.mp hps
  have htree : r.node.tree = tree := congrArg (·.node.tree) made.eq
  obtain ⟨tokens, ht, hi⟩ := SourceFile.exists_placed_of_ofText? hf
  obtain ⟨item, hitem, hd⟩ := mem_nestedAll.mp made.found
  have hlocated := (hi item hitem).located.of_mem_nested hd
  obtain ⟨before, source, rest, htext, hsource, hoffset⟩ := hlocated.exists_source ht
  refine ⟨before, source, .mk (htree ▸ made.eq) (htree ▸ hsource), ?_⟩
  have hstart : r.node.start = tree.offset d.extent.start := congrArg (·.node.start) made.eq
  have hstop : r.node.stop = tree.offset d.extent.stop := congrArg (·.node.stop) made.eq
  rw [htree, ← hoffset tree rfl, ← hstart, ← hstop]
  constructor
  · exact fun h => ⟨h.start, h.stop⟩
  · rintro ⟨h, h'⟩
    refine ⟨h, h', ?_⟩
    rw [Node.text, htree, h, h', tree.slice_byteCount htext]

/-- A byte order mark in front of two structs. -/
def markedSample : HostCompilation :=
  ⟨[⟨"src/lib.rs", "crate", "\uFEFFstruct S;\nstruct T;\n", .e2021, _, rfl⟩], .e2021⟩

private theorem records_markedSample :
    (build markedSample default).records.map (fun r => (r.node.tree.text, r.node.parent?, r.node.start, r.node.text)) =
      [("\uFEFFstruct S;\nstruct T;\n", none, 0, "\uFEFFstruct S;\nstruct T;\n"),
        ("\uFEFFstruct S;\nstruct T;\n", some 0, 0, "\uFEFFstruct S"),
        ("\uFEFFstruct S;\nstruct T;\n", some 0, 13, "struct T;")] := by
  decide +kernel

/-- The struct in the second line has a source. -/
theorem quotes_source_iff_second_line : ∃ r ∈ (build markedSample default).records, r.node.text = "struct T;" ∧
    ∃ before source, r.HasSource before source ∧
      (r.Quotes before source ↔ (SourceFile.IsMarked r.node.tree.text.toList → '\n' ∈ before)) := by
  have h : ("\uFEFFstruct S;\nstruct T;\n", some 0, 13, "struct T;") ∈ (build markedSample default).records.map
      (fun r => (r.node.tree.text, r.node.parent?, r.node.start, r.node.text)) := by simp [records_markedSample]
  obtain ⟨r, hr, h⟩ := List.mem_map.mp h
  simp only [Prod.mk.injEq] at h
  obtain ⟨-, hp, -, ht⟩ := h
  exact ⟨r, hr, ht, quotes_source_iff hr (by simp [hp])⟩

/-- The range of the struct in the first line begins at the byte order mark. -/
theorem not_quotes_source : ¬ ∀ (c : HostCompilation) (support : SupportModule), ∀ r ∈ (build c support).records,
    r.node.parent? ≠ none → ∃ before source, r.HasSource before source ∧ r.Quotes before source := by
  intro h
  have hm : ("\uFEFFstruct S;\nstruct T;\n", some 0, 0, "\uFEFFstruct S") ∈ (build markedSample default).records.map
      (fun r => (r.node.tree.text, r.node.parent?, r.node.start, r.node.text)) := by simp [records_markedSample]
  obtain ⟨r, hr, hm⟩ := List.mem_map.mp hm
  simp only [Prod.mk.injEq] at hm
  obtain ⟨htext, hp, hstart, -⟩ := hm
  obtain ⟨before, source, ⟨-, found⟩, hq⟩ := h markedSample default r hr (by simp [hp])
  refine found.before_ne_nil ?_ (byteCount_eq_zero_iff.mp (hq.start.symm.trans hstart))
  rw [htext]
  exact ⟨'\uFEFF', rfl, rfl⟩

end DeclarationIndex
end GeneratorHost
