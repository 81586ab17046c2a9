import GeneratorHost.Proofs.Grammar.Items
import GeneratorHost.Proofs.Reading.Items

/-! Files that are rows of items. -/
namespace GeneratorHost
open Token Reader

mutual

theorem Token.size_bare (t : Token) : t.bare.size = t.size := by
  cases t with
  | group delimiter content extent => rw [bare, size, size, sizeAll_bareAll content]
  | _ => rfl

theorem Token.sizeAll_bareAll (ts : List Token) : sizeAll (bareAll ts) = sizeAll ts := by
  cases ts with
  | nil => rfl
  | cons t ts => rw [bareAll, sizeAll, sizeAll, size_bare t, sizeAll_bareAll ts]

end

theorem Token.sizeAll_append (ts ts' : List Token) : sizeAll (ts ++ ts') = sizeAll ts + sizeAll ts' := by
  induction ts with
  | nil => rw [List.nil_append, sizeAll, Nat.zero_add]
  | cons t ts ih => rw [List.cons_append, sizeAll, ih, sizeAll, Nat.add_assoc]

namespace Grammar
variable {s s' : ReaderState} {source : TokenSource} {depth : Nat}

/-- What an item reads. -/
theorem exists_read_of_item (within : Token.Within source.tokens s.rest) (run : item (grammar depth) s = some ((), s')) :
    ∃ own, s.rest = own ++ s'.rest := by
  let start : Reading source := ⟨s, false, within⟩
  have hkeeps : Keeps (fun _ => True) start (item (grammar depth)) := item_keeps (itemGrammar_grammar depth) fun _ _ => trivial
  obtain ⟨read, _, hpassage, -⟩ := (keeps_iff.mp hkeeps s () s' run (Reading.proper_start start fun _ _ => trivial)).passed
  exact ⟨read, hpassage.rest⟩

/-- Tokens that are read as a declaration of some kind in front of anything. -/
structure ItemRow where
  tokens : List Token
  kind : Declaration → Prop

/-- A row is read from its tokens, wherever they stand, as a declaration of its kind. -/
structure ItemRow.ReadAs (row : ItemRow) (tokens : List Token) (e : Declaration) : Prop where
  kind : row.kind e
  read : ∃ own, bareAll own = row.tokens ∧ e.ReadFrom tokens own

theorem exists_row {rows : List ItemRow}
    (h : ∀ row ∈ rows, row.tokens ≠ [] ∧ ∀ rest, Declares (item (grammar depth)) (row.tokens ++ rest) row.kind rest)
    (within : Token.Within source.tokens s.rest) (hs : bareAll s.rest = rows.flatMap ItemRow.tokens) :
    ∃ es s', Row (item (grammar depth)) s es s' ∧ es.length ≤ s.rest.length ∧
      List.Forall₂ (fun row => row.ReadAs source.tokens) rows es := by
  induction rows generalizing s with
  | nil => exact ⟨[], s, .nothing (eq_nil_of_bareAll hs), Nat.zero_le _, .nil⟩
  | cons row rows ih =>
    obtain ⟨⟨hn, hrow⟩, hrows⟩ := List.forall_mem_cons.mp h
    obtain ⟨e, t, run, hkind, ht, hfound⟩ := hrow _ s hs
    obtain ⟨own, hown⟩ := exists_read_of_item within run
    have hbare : bareAll own = row.tokens := by
      rw [hown, bareAll_append, ht, List.flatMap_cons] at hs
      exact List.append_cancel_right hs
    have hpos : 0 < own.length := by
      rw [← length_bareAll, hbare]
      exact List.length_pos_iff.mpr hn
    have hlength : s.rest.length = own.length + t.rest.length := by rw [hown, List.length_append]
    obtain ⟨es, s', hr, hl, hes⟩ := ih hrows (Token.Within.drop own (hown ▸ within)) ht
    refine ⟨e :: es, s', .next (List.length_pos_iff.mp (by omega)) run hfound hr, ?_,
      .cons ⟨hkind, own, hbare, .all (.item depth) run within hown hfound⟩ hes⟩
    rw [List.length_cons]
    omega

end Grammar

namespace SourceFile
open Grammar

theorem ofTokens?_of_file {ts : List Token} {s : ReaderState} (h : file (grammar (depthFor ts)) ⟨ts, #[], #[]⟩ = some ((), s))
    (hr : s.rest = []) : ofTokens? ts = some ⟨s.found.toList⟩ := by
  have hp : parseAll file ts = some ((), s) := by
    rw [parseAll, h]
    dsimp only
    rw [hr]
    rfl
  rw [ofTokens?, hp]
  rfl

/-- A file whose tokens are rows of items holds these items. -/
theorem exists_ofTokens?_of_rows (source : TokenSource) {rows : List ItemRow} (hs : bareAll source.tokens = rows.flatMap ItemRow.tokens)
    (hi : (isMark "#" (rows.flatMap ItemRow.tokens) && isMark "!" (skip (rows.flatMap ItemRow.tokens))) = false)
    (h : ∀ row ∈ rows, row.tokens ≠ [] ∧ ∀ rest,
      Declares (item (grammar (8 * sizeAll source.tokens + 15))) (row.tokens ++ rest) row.kind rest) :
    ∃ es, ofTokens? source.tokens = some ⟨es⟩ ∧ List.Forall₂ (fun row => row.ReadAs source.tokens) rows es := by
  have hu : Unplaced fun ts => isMark "#" ts && isMark "!" (skip ts) := inferInstance
  let start : ReaderState := ⟨source.tokens, #[], #[]⟩
  have hfront : collecting (innerAttributes (grammar (depthFor source.tokens))) start = some (([], []), start) :=
    collecting_eq_some_iff.mpr ⟨start, innerAttributes_of_not ((hu.of_bareAll hs).trans hi), rfl, rfl⟩
  obtain ⟨es, s, hrow, hl, hes⟩ := exists_row (s := start) h .all hs
  obtain ⟨hr, hf⟩ := hrow.found
  refine ⟨es, ?_, hes⟩
  have hfile : file (grammar (depthFor source.tokens)) start = some ((), s) :=
    (bind_of_eq_some hfront).trans (hrow.untilEnd hl)
  rw [ofTokens?_of_file hfile hr, hf]
  simp [start]

end SourceFile
end GeneratorHost
