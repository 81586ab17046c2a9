import Mathlib.Data.List.DropRight
import GeneratorHost.Proofs.Text.Offsets

/-! Lines of a text. The byte offset of a place turns the place of a character boundary back, cuts the text
nowhere inside a character, and does not decrease from one place to a later one. -/
namespace GeneratorHost

/-- Places in reading order. -/
instance : LE Position := ⟨fun p q => p.line < q.line ∨ p.line = q.line ∧ p.column ≤ q.column⟩

/-- A stretch of text inside another. -/
structure Extent.Inside (inner outer : Extent) : Prop where
  start : outer.start ≤ inner.start
  stop : inner.stop ≤ outer.stop

namespace Text

theorem byteCount_toList (s : String) : byteCount s.toList = s.utf8ByteSize := by
  have h (cs : List Char) : byteCount cs = (String.ofList cs).utf8ByteSize := by
    induction cs with
    | nil => rfl
    | cons c cs ih =>
      rw [byteCount, ih, String.ofList_cons, String.utf8ByteSize_append, String.utf8ByteSize_singleton]
  rw [h, String.ofList_toList]

theorem byteCount_le_of_prefix {cs ds : List Char} (h : cs <+: ds) : byteCount cs ≤ byteCount ds := by
  obtain ⟨rest, rfl⟩ := h
  rw [byteCount_append]
  exact Nat.le_add_right _ _

theorem length_splitChar (separator : Char) (cs : List Char) :
    (splitChar separator cs).length = cs.count separator + 1 := by
  induction cs with
  | nil => rfl
  | cons c cs ih =>
    obtain ⟨piece, pieces, hs⟩ := exists_splitChar separator cs
    by_cases hc : c = separator
    · simp [splitChar, hc, ih]
    · rw [hs] at ih
      rw [splitChar, if_neg hc, hs, List.count_cons_of_ne hc, ← ih]
      rfl

/-- The last piece of a text is what stands behind the last separator. -/
theorem exists_splitChar_last (separator : Char) (cs : List Char) :
    ∃ pieces, splitChar separator cs = pieces ++ [cs.rtakeWhile (· ≠ separator)] := by
  have hc := List.rdropWhile_append_rtakeWhile (p := (· ≠ separator)) (l := cs)
  have hn : separator ∉ cs.rtakeWhile (· ≠ separator) := fun h => by simpa using List.mem_rtakeWhile_imp h
  by_cases hd : cs.rdropWhile (· ≠ separator) = []
  · rw [hd, List.nil_append] at hc
    rw [hc] at hn ⊢
    exact ⟨[], splitChar_of_not_mem hn⟩
  · -- in front of the last piece stands the separator that ends the rest
    obtain ⟨front, c, hf⟩ := (List.eq_nil_or_concat' _).resolve_left hd
    have hl := List.rdropWhile_last_not (· ≠ separator) cs hd
    simp only [hf, List.getLast_append_singleton] at hl
    obtain rfl : c = separator := by simpa using hl
    rw [hf, List.append_assoc, List.singleton_append] at hc
    refine ⟨splitChar c front, ?_⟩
    conv_lhs => rw [← hc]
    rw [splitChar_append, splitChar_of_not_mem hn]

/-! ### The text in front of a place -/

/-- The text in front of a column of a line, lines counted from zero: all of the line if it is shorter, and all of
the text if there are fewer lines. -/
def upTo : List Char → Nat → Nat → List Char
  | [], _, _ => []
  | _ :: _, 0, 0 => []
  | c :: cs, 0, column + 1 => if c = '\n' then [] else c :: upTo cs 0 column
  | c :: cs, line + 1, column => c :: upTo cs (if c = '\n' then line else line + 1) column

theorem upTo_prefix (cs : List Char) (line column : Nat) : upTo cs line column <+: cs := by
  fun_induction upTo cs line column with
  | case1 | case2 | case3 => exact List.nil_prefix
  | case4 c cs column hc ih => exact (List.prefix_cons_inj c).mpr ih
  | case5 c cs line column ih => exact (List.prefix_cons_inj c).mpr ih

theorem upTo_prefix_of_le {line line' column column' : Nat} (cs : List Char)
    (h : line < line' ∨ line = line' ∧ column ≤ column') : upTo cs line column <+: upTo cs line' column' := by
  fun_induction upTo cs line column generalizing line' column' with
  | case1 | case2 | case3 => exact List.nil_prefix
  | case4 c cs column hc ih =>
    obtain ⟨line', rfl⟩ | ⟨rfl, column', rfl⟩ : (∃ n, line' = n + 1) ∨ 0 = line' ∧ ∃ n, column' = n + 1 := by
      rcases h with h | ⟨rfl, h⟩
      · exact .inl ⟨line' - 1, by omega⟩
      · exact .inr ⟨rfl, column' - 1, by omega⟩
    · rw [upTo, if_neg hc]
      exact (List.prefix_cons_inj c).mpr (ih (.inl (Nat.zero_lt_succ _)))
    · rw [upTo, if_neg hc]
      exact (List.prefix_cons_inj c).mpr (ih (.inr ⟨rfl, by omega⟩))
  | case5 c cs line column ih =>
    obtain ⟨line', rfl⟩ : ∃ n, line' = n + 1 := ⟨line' - 1, by omega⟩
    rw [upTo]
    refine (List.prefix_cons_inj c).mpr (ih ?_)
    split <;> omega

end Text

open Text

/-! ### Places -/

/-- The place behind a text is as many lines down as it has line feeds, behind as many characters as follow the last
of them. -/
theorem Position.afterAll_origin (cs : List Char) :
    origin.afterAll cs = ⟨cs.count '\n' + 1, (cs.rtakeWhile (· ≠ '\n')).length⟩ := by
  induction cs using List.reverseRecOn with
  | nil => rfl
  | append_singleton cs c ih =>
    have hs : origin.afterAll (cs ++ [c]) = (origin.afterAll cs).after c := List.foldl_append
    rw [hs, ih, after, List.count_append, List.rtakeWhile_concat]
    by_cases hc : c = '\n' <;> simp [hc]

namespace TextLine

theorem offsetIn_of_feed (start column : Nat) (cs : List Char) :
    offsetIn start ('\n' :: cs) ⟨1, column⟩ = some start := by
  simp [offsetIn, splitChar, place, byteCount]

/-- The offset of a place counts the text in front of it. -/
theorem offsetIn_getD (start : Nat) (cs : List Char) (line column : Nat) :
    (offsetIn start cs ⟨line + 1, column⟩).getD (start + byteCount cs) =
      start + byteCount (upTo cs line column) := by
  fun_induction upTo cs line column generalizing start with
  | case1 line column =>
    cases line <;> simp [offsetIn, splitChar, place, byteCount]
  | case2 c cs => rw [← Position.origin, offsetIn_origin, Option.getD_some, byteCount, Nat.add_zero]
  | case3 cs column =>
    rw [offsetIn_of_feed, Option.getD_some, byteCount, Nat.add_zero]
  | case4 c cs column hc ih =>
    rw [offsetIn_first hc, byteCount, byteCount, ← Nat.add_assoc, ← Nat.add_assoc, ih]
  | case5 c cs line column ih =>
    rw [byteCount, byteCount, ← Nat.add_assoc, ← Nat.add_assoc, ← ih]
    by_cases hc : c = '\n'
    · subst hc
      rw [offsetIn_feed, if_pos rfl]
      rfl
    · rw [offsetIn_further hc, if_neg hc]

/-! ### Lines -/

theorem map_chars_place (start : Nat) (pieces : List (List Char)) : (place start pieces).map chars = pieces := by
  induction pieces generalizing start with
  | nil => rfl
  | cons piece pieces ih => rw [place, List.map_cons, ih]

/-- A line of a text with what stands in front of it and behind it. -/
structure Cut (start : Nat) (cs : List Char) (number : Nat) (line : TextLine) (before rest : List Char) : Prop where
  text : cs = before ++ (line.chars ++ rest)
  start : line.start = start + byteCount before
  number : before.count '\n' = number
  single : '\n' ∉ line.chars
  ended : ∀ c ∈ rest.head?, c = '\n'

theorem exists_cut {start number : Nat} {cs : List Char} {line : TextLine}
    (h : (place start (splitChar '\n' cs))[number]? = some line) :
    ∃ before rest, Cut start cs number line before rest := by
  induction cs generalizing start number line with
  | nil =>
    obtain ⟨rfl, rfl⟩ : number = 0 ∧ line = ⟨start, []⟩ := by
      cases number <;> simp_all [splitChar, place]
    exact ⟨[], [], ⟨rfl, rfl, rfl, List.not_mem_nil, fun c hc => absurd hc.symm (Option.some_ne_none c)⟩⟩
  | cons c cs ih =>
    by_cases hc : c = '\n'
    · subst hc
      rw [splitChar, if_pos rfl, place] at h
      cases number with
      | zero =>
        cases h
        exact ⟨[], '\n' :: cs, ⟨rfl, rfl, rfl, List.not_mem_nil, fun c hc => (Option.some.inj hc).symm⟩⟩
      | succ number =>
        obtain ⟨before, rest, ht, hs, hn, hl, he⟩ := ih h
        refine ⟨'\n' :: before, rest, ⟨congrArg _ ht, ?_, by rw [List.count_cons_self, hn], hl, he⟩⟩
        rw [hs, byteCount, byteCount, Nat.add_zero, Nat.add_assoc]
        rfl
    · obtain ⟨piece, pieces, hp⟩ := exists_splitChar '\n' cs
      rw [splitChar, if_neg hc, hp, place] at h
      rw [hp] at ih
      cases number with
      | zero =>
        cases h
        obtain ⟨before, rest, ht, hs, -, hl, he⟩ := @ih start 0 _ rfl
        obtain rfl : before = [] := byteCount_eq_zero_iff.mp (Nat.add_eq_left.mp hs.symm)
        refine ⟨[], rest, ⟨congrArg _ ht, rfl, rfl, ?_, he⟩⟩
        exact fun hm => (List.mem_cons.mp hm).elim (fun h => hc h.symm) hl
      | succ number =>
        have hi : (place (start + c.utf8Size) (piece :: pieces))[number + 1]? = some line := by
          rw [place, List.getElem?_cons_succ, Nat.add_assoc start]
          exact h
        obtain ⟨before, rest, ht, hs, hn, hl, he⟩ := ih hi
        refine ⟨c :: before, rest, ⟨congrArg _ ht, ?_, ?_, hl, he⟩⟩
        · rw [hs, byteCount, Nat.add_assoc]
        · rw [List.count_cons_of_ne hc, hn]

/-- A line can be cut out of the text: from its beginning on, and up to the line feed that follows. -/
theorem Cut.cuts {number : Nat} {cs before rest : List Char} {line : TextLine} (h : Cut 0 cs number line before rest) :
    dropBytes? line.start cs = some (line.chars ++ rest) ∧
      (line.chars ++ rest).takeWhile (· ≠ '\n') = line.chars ∧
      takeBytes? (byteCount line.chars) (line.chars ++ rest) = some line.chars := by
  refine ⟨?_, ?_, takeBytes?_byteCount _ _⟩
  · rw [h.start, Nat.zero_add, h.text]
    exact dropBytes?_byteCount _ _
  · have hl : ∀ c ∈ line.chars, decide (c ≠ '\n') := fun c hc => decide_eq_true fun he => h.single (he ▸ hc)
    have hr : rest.takeWhile (· ≠ '\n') = [] := by
      have he := h.ended
      cases rest with
      | nil => rfl
      | cons c rest => simp [he c rfl]
    rw [List.takeWhile_append_of_pos hl, hr, List.append_nil]

/-- Nothing is behind the last line. -/
theorem Cut.rest_eq_nil {start : Nat} {cs before rest : List Char} {line : TextLine}
    (h : Cut start cs (cs.count '\n') line before rest) : rest = [] := by
  have hn := h.number
  have hz : line.chars.count '\n' = 0 := List.count_eq_zero.mpr h.single
  rw [h.text, List.count_append, List.count_append, hz] at hn
  have he := h.ended
  cases rest with
  | nil => rfl
  | cons c rest =>
    rw [he c rfl, List.count_cons_self] at hn
    omega

/-! ### Beginnings of lines -/

/-- The byte offsets behind the line feeds of a text, counted from a byte on. -/
def startsBehind (start : Nat) : List Char → List Nat
  | [] => []
  | c :: cs =>
    if c = '\n' then (start + c.utf8Size) :: startsBehind (start + c.utf8Size) cs
    else startsBehind (start + c.utf8Size) cs

theorem map_start_place (start : Nat) (cs : List Char) :
    (place start (splitChar '\n' cs)).map (·.start) = start :: startsBehind start cs := by
  induction cs generalizing start with
  | nil => rfl
  | cons c cs ih =>
    by_cases hc : c = '\n'
    · subst hc
      rw [splitChar, if_pos rfl, place, List.map_cons, ih, startsBehind, if_pos rfl]
      rfl
    · obtain ⟨piece, pieces, hp⟩ := exists_splitChar '\n' cs
      have hi := ih (start + c.utf8Size)
      rw [hp, place, List.map_cons, Nat.add_assoc start] at hi
      rw [splitChar, if_neg hc, hp, place, List.map_cons, startsBehind, if_neg hc, ← List.tail_eq_of_cons_eq hi]
      rfl

end TextLine

namespace SourceTree
open TextLine

/-- The byte offsets at which the lines begin. -/
def lineStarts (t : SourceTree) : List Nat := 0 :: startsBehind 0 t.text.toList

/-- The offset of a position by cutting the text at the beginning of its line and at the line feed behind that.
There is none if a cut is inside a character or behind the end. -/
def cutOffset? (t : SourceTree) (p : Position) : Option Nat :=
  match p.line with
  | 0 => some t.byteLength
  | n + 1 =>
    match t.lineStarts[n]? with
    | none => some t.byteLength
    | some start => do
      let rest ← dropBytes? start t.text.toList
      let stop := byteCount (rest.takeWhile (· ≠ '\n'))
      let line ← takeBytes? stop rest
      return if p.column < line.length then start + byteCount (line.take p.column) else start + stop

/-- The extent of the whole text by cutting it at the beginning of the last line. -/
def cutExtent? (t : SourceTree) : Option Extent := do
  let rest ← dropBytes? (t.lineStarts.getLast?.getD 0) t.text.toList
  return ⟨.origin, ⟨t.lineStarts.length, rest.length⟩⟩

variable {t : SourceTree}

theorem lineStarts_eq (t : SourceTree) : t.lineStarts = t.lines.toList.map (·.start) := by
  rw [t.lines_eq, ofText, map_start_place]
  rfl

theorem exists_cut_of_lines {number : Nat} {line : TextLine} (h : t.lines[number]? = some line) :
    ∃ before rest, Cut 0 t.text.toList number line before rest := by
  rw [t.lines_eq, ofText, List.getElem?_toArray] at h
  exact exists_cut h

theorem cutOffset?_eq (t : SourceTree) (p : Position) : t.cutOffset? p = some (t.offset p) := by
  unfold cutOffset? offset
  cases p.line with
  | zero => rfl
  | succ n =>
    dsimp only
    rw [lineStarts_eq, List.getElem?_map, Array.getElem?_toList]
    cases hl : t.lines[n]? with
    | none => rfl
    | some line =>
      obtain ⟨before, rest, hc⟩ := exists_cut_of_lines hl
      obtain ⟨hd, hw, ht⟩ := hc.cuts
      simp only [Option.map_some, hd, hw, ht, Option.bind_eq_bind, Option.bind_some, Option.pure_def, Option.some.injEq]
      split
      · rfl
      · rename_i hlen
        rw [List.take_of_length_le (Nat.le_of_not_lt hlen)]

theorem size_lines (t : SourceTree) : t.lines.size = t.text.toList.count '\n' + 1 := by
  have h := congrArg List.length (map_chars_place 0 (splitChar '\n' t.text.toList))
  rw [List.length_map, length_splitChar] at h
  rw [t.lines_eq, ofText, List.size_toArray, h]

theorem exists_back?_lines (t : SourceTree) :
    ∃ line, t.lines.back? = some line ∧ line.chars = t.text.toList.rtakeWhile (· ≠ '\n') := by
  obtain ⟨pieces, hp⟩ := exists_splitChar_last '\n' t.text.toList
  have h := congrArg List.getLast? (map_chars_place 0 (splitChar '\n' t.text.toList))
  rw [hp, List.getLast?_concat, ← hp, List.getLast?_map, Option.map_eq_some_iff] at h
  rwa [t.lines_eq, ofText, List.back?_toArray]

/-- The extent of a text ends at the place behind it. -/
theorem fullExtent_eq (t : SourceTree) : t.fullExtent = ⟨.origin, Position.origin.afterAll t.text.toList⟩ := by
  obtain ⟨line, hb, hc⟩ := t.exists_back?_lines
  rw [fullExtent, Position.afterAll_origin, size_lines, hb, Option.map_some, Option.getD_some, hc]

/-- The extent of a text ends in no more lines than there are bytes and one, behind no more characters than there are
bytes, so that 32 bits hold both numbers for a text of less than 4 GiB. -/
theorem fullExtent_stop_le (t : SourceTree) :
    t.fullExtent.stop.line ≤ t.byteLength + 1 ∧ t.fullExtent.stop.column ≤ t.byteLength := by
  have hl (cs : List Char) : cs.length ≤ byteCount cs := by
    induction cs with
    | nil => exact Nat.le_refl _
    | cons c cs ih =>
      have := c.utf8Size_pos
      rw [List.length_cons, byteCount]
      omega
  rw [fullExtent_eq, Position.afterAll_origin, byteLength, ← byteCount_toList]
  refine ⟨Nat.add_le_add_right (List.count_le_length.trans (hl _)) 1, ?_⟩
  exact (List.rtakeWhile_suffix _ _).length_le.trans (hl _)

theorem cutExtent?_eq (t : SourceTree) : t.cutExtent? = some t.fullExtent := by
  obtain ⟨line, hb, -⟩ := t.exists_back?_lines
  have hl : t.lines[t.text.toList.count '\n']? = some line := by
    rw [← hb, Array.back?_eq_getElem?, size_lines, Nat.add_sub_cancel]
  obtain ⟨before, rest, hc⟩ := exists_cut_of_lines hl
  have hd := hc.cuts.1
  rw [hc.rest_eq_nil, List.append_nil] at hd
  have hs : t.lineStarts.getLast? = some line.start := by
    rw [lineStarts_eq, List.getLast?_map, Array.getLast?_toList, hb, Option.map_some]
  have hn : t.lineStarts.length = t.lines.size := by
    rw [lineStarts_eq, List.length_map, Array.length_toList]
  rw [cutExtent?, hs, Option.getD_some, hd, hn, fullExtent, hb]
  rfl

/-! ### Offsets -/

/-- The offset of a place counts the text in front of it. -/
theorem offset_eq_byteCount (t : SourceTree) (line column : Nat) :
    t.offset ⟨line + 1, column⟩ = byteCount (upTo t.text.toList line column) := by
  have h := offsetIn_getD 0 t.text.toList line column
  rw [Nat.zero_add, Nat.zero_add, byteCount_toList] at h
  rw [t.offset_eq_offsetIn (Nat.le_add_left 1 line), byteLength, h]

theorem exists_prefix_of_offset (t : SourceTree) (p : Position) :
    ∃ before, before <+: t.text.toList ∧ t.offset p = byteCount before := by
  obtain ⟨_ | line, column⟩ := p
  · exact ⟨_, List.prefix_refl _, (byteCount_toList _).symm⟩
  · exact ⟨_, upTo_prefix _ line column, t.offset_eq_byteCount line column⟩

/-- Every offset is one at which the text can be cut. -/
theorem offset_isValid (t : SourceTree) (p : Position) : String.Pos.Raw.IsValid t.text ⟨t.offset p⟩ := by
  obtain ⟨before, ⟨rest, hr⟩, ho⟩ := t.exists_prefix_of_offset p
  refine String.Pos.Raw.isValid_iff_exists_append.mpr ⟨.ofList before, .ofList rest, ?_, ?_⟩
  · rw [← String.ofList_append, hr, String.ofList_toList]
  · rw [ho, String.rawEndPos, ← byteCount_toList, String.toList_ofList]

theorem offset_le_byteLength (t : SourceTree) (p : Position) : t.offset p ≤ t.byteLength := by
  obtain ⟨before, hb, ho⟩ := t.exists_prefix_of_offset p
  rw [ho, byteLength, ← byteCount_toList]
  exact byteCount_le_of_prefix hb

theorem offset_mono (t : SourceTree) {p q : Position} (hp : 1 ≤ p.line) (h : p ≤ q) : t.offset p ≤ t.offset q := by
  obtain ⟨line, column⟩ := p
  obtain ⟨line', column'⟩ := q
  change line < line' ∨ line = line' ∧ column ≤ column' at h
  obtain ⟨line, rfl⟩ := Nat.exists_eq_add_of_le' hp
  obtain ⟨line', rfl⟩ := Nat.exists_eq_add_of_le' (show 1 ≤ line' by omega)
  rw [offset_eq_byteCount, offset_eq_byteCount]
  exact byteCount_le_of_prefix (upTo_prefix_of_le _ (by omega))

/-- The offset of the place of a character boundary, one line down for every line feed in front of it and behind
as many characters as follow the last of them, is that boundary. The offset of any place at all is a boundary of the
text, and no cut on the way to it or to the extent of the text fails. Offsets do not decrease from one place to a
later one, so that a stretch inside another has its bytes inside, and the extent of a text has all its bytes, with an
end whose numbers the length bounds. -/
theorem offsets_invert_positions (t : SourceTree) :
    (∀ before rest : String, t.text = before ++ rest →
      t.offset ⟨before.toList.count '\n' + 1, (before.toList.rtakeWhile (· ≠ '\n')).length⟩ = before.utf8ByteSize) ∧
    (∀ p, t.offset p ≤ t.byteLength ∧ String.Pos.Raw.IsValid t.text ⟨t.offset p⟩ ∧
      t.cutOffset? p = some (t.offset p)) ∧
    t.cutExtent? = some t.fullExtent ∧
    (∀ p q : Position, 1 ≤ p.line → p ≤ q → t.offset p ≤ t.offset q) ∧
    (∀ inner outer : Extent, 1 ≤ outer.start.line → 1 ≤ inner.stop.line → inner.Inside outer →
      t.offset outer.start ≤ t.offset inner.start ∧ t.offset inner.stop ≤ t.offset outer.stop) ∧
    t.offset t.fullExtent.start = 0 ∧ t.offset t.fullExtent.stop = t.byteLength ∧
    t.fullExtent.stop.line ≤ t.byteLength + 1 ∧ t.fullExtent.stop.column ≤ t.byteLength := by
  refine ⟨fun before rest h => ?_, fun p => ⟨t.offset_le_byteLength p, t.offset_isValid p, t.cutOffset?_eq p⟩,
    t.cutExtent?_eq, fun p q => t.offset_mono, fun inner outer ho hi h => ?_, ?_, ?_, t.fullExtent_stop_le⟩
  · have ht : t.text.toList = before.toList ++ rest.toList := by rw [h, String.toList_append]
    rw [← Position.afterAll_origin, t.offset_afterAll _ _ ht, byteCount_toList]
  · exact ⟨t.offset_mono ho h.start, t.offset_mono hi h.stop⟩
  · rw [fullExtent_eq]
    exact t.offset_afterAll [] _ rfl
  · rw [fullExtent_eq, t.offset_afterAll _ [] (List.append_nil _).symm, byteCount_toList]
    rfl

/-- Three lines, the second with a letter of two bytes; the fourth line does not exist. -/
example : let t : SourceTree := { path := "lib.rs", module := "crate", text := "a\né\n", edition := .e2021 }
    ([⟨1, 0⟩, ⟨2, 1⟩, ⟨2, 7⟩, ⟨3, 0⟩, ⟨4, 0⟩] : List Position).map t.offset = [0, 4, 4, 5, 5] := by decide

end SourceTree
end GeneratorHost
