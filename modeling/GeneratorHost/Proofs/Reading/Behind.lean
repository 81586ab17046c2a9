import GeneratorHost.Proofs.Grammar.Closing
import GeneratorHost.Proofs.Reading.Calls
import GeneratorHost.Proofs.Reading.Files

/-! Files with items behind them. A file that ends where an item ends, or whose last token is no mark that goes on, holds
with rows of items behind it what it holds alone, and these items. -/
namespace GeneratorHost
open Token Reader Reader.Sequel

namespace Grammar

variable {p p' : Reader Unit} {s s' t : ReaderState} {es es' : List Declaration} {more : List Token}

/-! ### Rows -/

/-- What is read up to the end is a row, if each step finds one declaration. -/
theorem exists_row_of_untilEnd (hp : ∀ s s', p s = some ((), s') → ∃ e, s'.found = s.found.push e)
    (h : untilEnd p s = some ((), s')) : ∃ es, Row p s es s' ∧ es.length ≤ s.rest.length := by
  have hrow {fuel : Nat} {s : ReaderState}
      (h : iterateUpTo fuel (fun _ => do return (← untilEndStep p, ())) () s = some ((), s')) :
      ∃ es, Row p s es s' ∧ es.length < fuel := by
    induction fuel generalizing s with
    | zero => cases h
    | succ fuel ih =>
      rw [iterateUpTo, bind_assoc] at h
      obtain ⟨goes, t, hstep, h⟩ := bind_eq_some_iff.mp h
      unfold untilEndStep atEnd at hstep
      rw [ahead_bind] at hstep
      split at hstep
      · rename_i hr
        cases hstep
        cases h
        exact ⟨[], .nothing (List.isEmpty_iff.mp hr), Nat.succ_pos fuel⟩
      · rename_i hr
        obtain ⟨_, _, run, hgoes⟩ := bind_eq_some_iff.mp hstep
        cases hgoes
        obtain ⟨e, he⟩ := hp _ _ run
        obtain ⟨es, hes, hl⟩ := ih h
        exact ⟨e :: es, .next (mt List.isEmpty_iff.mpr hr) run he hes, Nat.succ_lt_succ hl⟩
  obtain ⟨es, hes, hl⟩ := hrow (h : iterateUpTo _ _ _ _ = _)
  exact ⟨es, hes, Nat.le_of_lt_succ hl⟩

/-- A row with another one behind it. -/
theorem Row.before [hf : Finishes (items more) p p'] (h : Row p s es t) (hs : (items more).Parted s.rest)
    (h' : Row p' (t.before (items more)) es' s') :
    Row p' (s.before (items more)) (es ++ es') s' ∧ (items more).Closed s.rest := by
  induction h with
  | nothing hr => exact ⟨h', fun hn => absurd hr hn⟩
  | next hn run found _ ih =>
    obtain ⟨hrow, hclosed⟩ := ih (hs.of_suffix (hf.suffix run)) h'
    exact ⟨.next (List.append_ne_nil_of_left_ne_nil hn more) (hf.run run hs hclosed) found hrow, fun _ => hf.ends run hs hclosed⟩

/-! ### Attributes at the front of a file -/

/-- The tokens that begin an attribute of what encloses it. -/
def beginsInner (ts : List Token) : Bool := isMark "#" ts && isMark "!" (skip ts)

/-- More tokens that begin with an attribute of their own do not make the ones before begin an inner one. -/
instance [hq : Quiet (items more)] : Steady (any more) beginsInner where
  eq ts _ := by
    obtain hn | ⟨joint, e, content, e', behind, hm⟩ := hq.cases
    · cases hn
    · cases hm
      have hmark (text : String) (h : text.toList.length = 1) (t : Token) (us vs : List Token) :
          isMark text (t :: us) = isMark text (t :: vs) := by
        obtain ⟨c, hc⟩ := List.length_eq_one_iff.mp h
        rw [isMark, isMark, hc]
        cases t <;> rfl
      unfold beginsInner
      cases ts with
      | nil => exact Bool.and_false _
      | cons t ts =>
        rw [List.cons_append, hmark "#" rfl t (ts ++ _) ts]
        cases t with
        | punct c joint e =>
          by_cases hc : c = '#'
          · subst hc
            change (_ && isMark "!" (ts ++ _)) = (_ && isMark "!" ts)
            cases ts with
            | nil => rfl
            | cons u us => rw [List.cons_append, hmark "!" rfl u _ us]
          · have hn : isMark "#" (.punct c joint e :: ts) = false := decide_eq_false fun h => hc h.symm
            rw [hn]
            rfl
        | _ => rfl

theorem innerStep_eq (g : Grammar) (attributes : List Attribute) : innerStep g attributes =
    ahead beginsInner >>= fun inner => if inner then readAttribute g true >>= fun a => pure (true, a :: attributes)
      else pure (false, attributes) := rfl

instance {g g' : Grammar} [Grows g g'] [Quiet (items more)] : Extends (any more) (innerAttributes g) (innerAttributes g') := by
  have hstep (attributes : List Attribute) : Extends (any more) (innerStep g attributes) (innerStep g' attributes) := by
    rw [innerStep_eq, innerStep_eq]
    infer_instance
  rw [innerAttributes_eq, innerAttributes_eq]
  infer_instance

end Grammar

namespace SourceFile
open Grammar

theorem file_of_ofTokens? {ts : List Token} {f : SourceFile} (h : ofTokens? ts = some f) : ∃ s,
    file (grammar (depthFor ts)) ⟨ts, #[], #[]⟩ = some ((), s) ∧ s.rest = [] ∧ f = ⟨s.found.toList⟩ := by
  rw [ofTokens?, Option.map_eq_some_iff] at h
  obtain ⟨⟨_, s⟩, hp, rfl⟩ := h
  unfold parseAll at hp
  split at hp
  · rename_i a s' hf
    split at hp
    · rename_i hr
      cases hp
      exact ⟨s, hf, List.isEmpty_iff.mp hr, rfl⟩
    · cases hp
  · cases hp

/-- The items of a file stay with rows of items behind them, which are read as well. -/
theorem exists_ofTokens?_append {ts more : List Token} {f : SourceFile} (h : ofTokens? ts = some f)
    (hp : (Sequel.items more).Parted ts) (hq : Quiet (Sequel.items more)) (proper : ∀ t ∈ ts ++ more, t.Proper) {rows : List ItemRow}
    (hrows : bareAll more = rows.flatMap ItemRow.tokens)
    (hr : ∀ row ∈ rows, row.tokens ≠ [] ∧ ∀ rest,
      Declares (item (grammar (8 * sizeAll (ts ++ more) + 15))) (row.tokens ++ rest) row.kind rest) :
    ∃ es, ofTokens? (ts ++ more) = some ⟨f.items ++ es⟩ ∧ List.Forall₂ (fun row => row.ReadAs (ts ++ more)) rows es := by
  obtain ⟨s, hf, hs, rfl⟩ := file_of_ofTokens? h
  have hdepth : 8 * sizeAll ts + 15 ≤ 8 * sizeAll (ts ++ more) + 15 := by
    rw [sizeAll_append]
    omega
  have : Grows (grammar (8 * sizeAll ts + 15)) (grammar (8 * sizeAll (ts ++ more) + 15)) := grows_grammar hdepth
  have : Grows (grammar (depthFor ts)) (grammar (depthFor (ts ++ more))) := grows_grammar (Nat.succ_le_succ hdepth)
  obtain ⟨r, t, hfront, hitems⟩ := bind_eq_some_iff.mp hf
  obtain ⟨es, hes, hl⟩ := exists_row_of_untilEnd (p := item (grammar (8 * sizeAll ts + 15)))
    (fun _ _ hi => (exists_found_of_item hi).imp fun _ => And.left) hitems
  have hext : Extends (any more) (collecting (innerAttributes (grammar (depthFor ts))))
      (collecting (innerAttributes (grammar (depthFor (ts ++ more))))) := inferInstance
  have hfront' := hext.run hfront trivial
  have hrest : (s.before (Sequel.items more)).rest = more := congrArg (· ++ more) hs
  have hwithin : Token.Within (TokenSource.mk (ts ++ more) proper).tokens (s.before (Sequel.items more)).rest := by
    rw [hrest]
    exact .drop ts .all
  obtain ⟨es', s', hes', hl', hforall⟩ := exists_row hr hwithin (by rw [hrest, hrows])
  obtain ⟨hrow, -⟩ := hes.before (hp.of_suffix (hext.suffix hfront)) hes'
  have huntil := hrow.untilEnd (by
    rw [hrest] at hl'
    rw [List.length_append, ReaderState.before, List.length_append]
    exact Nat.add_le_add hl hl')
  have hfile : file (grammar (depthFor (ts ++ more))) ⟨ts ++ more, #[], #[]⟩ = some ((), s') :=
    (bind_of_eq_some hfront').trans huntil
  refine ⟨es', ?_, hforall⟩
  rw [ofTokens?_of_file hfile hrow.found.1, hrow.found.2, hes.found.2]
  simp [ReaderState.before]

end SourceFile
end GeneratorHost
