import Mathlib.Algebra.Ring.Nat
import Mathlib.Data.List.Basic
import GeneratorHost.Proofs.Text.Offsets
import GeneratorHost.Report.Log

/-! Entries in the text of a log. An entry begins with a line that names its candidate, and any line of a message may
read as one: by their lines the entries are counted rightly exactly if no message has such a line. -/
namespace GeneratorHost

namespace Text

theorem lines_eq_map (s : String) : ∃ pieces ended, lines s =
      (pieces.zipIdx.map fun piece => if piece.2 < ended then dropCarriage piece.1 else piece.1).map String.ofList ∧
    (splitChar '\n' s.toList = pieces ∨ splitChar '\n' s.toList = pieces ++ [[]]) := by
  unfold lines
  refine ⟨_, _, rfl, ?_⟩
  split
  · rename_i h
    obtain ⟨before, hb⟩ := List.getLast?_eq_some_iff.mp h
    exact .inr (by rw [hb, List.dropLast_concat])
  · exact .inl rfl

end Text

namespace DiagnosticLog

open Text

/-- Whether a line reads as the first of an entry. -/
def isHeading (line : List Char) : Bool := "Error From ".toList.isPrefixOf line

/-- The number of a text's lines that read as the first of an entry. -/
def headings (text : String) : Nat := (lines text).countP fun line => isHeading line.toList

/-- The log of some calls that record the diagnostics of candidates. -/
def ofCalls (calls : List (String × List Diagnostic)) : DiagnosticLog :=
  calls.foldl (fun log call => log.record call.1 call.2) {}

/-! ### Lines -/

/-- A heading does not end in a carriage return. -/
theorem isHeading_dropCarriage (line : List Char) : isHeading (dropCarriage line) = isHeading line := by
  have hc : '\r' ∉ "Error From ".toList := by decide
  unfold isHeading dropCarriage
  split
  · rename_i h
    obtain ⟨before, rfl⟩ := List.getLast?_eq_some_iff.mp h
    rw [List.dropLast_concat, Bool.eq_iff_iff, List.isPrefixOf_iff_prefix, List.isPrefixOf_iff_prefix,
      List.prefix_concat_iff]
    refine (or_iff_right fun he => hc ?_).symm
    rw [he]
    exact List.mem_concat_self
  · rfl

theorem headings_eq_countP (text : String) : headings text = (splitChar '\n' text.toList).countP isHeading := by
  obtain ⟨pieces, ended, hl, hs⟩ := lines_eq_map text
  have hp : headings text = pieces.countP isHeading := by
    rw [headings, hl, List.map_map, List.countP_map]
    conv_rhs => rw [← List.zipIdx_map_fst 0 pieces, List.countP_map]
    refine List.countP_congr fun piece _ => ?_
    simp only [Function.comp, String.toList_ofList]
    split
    · rw [isHeading_dropCarriage]
    · exact Iff.rfl
  rcases hs with hs | hs
  · rw [hp, hs]
  · rw [hp, hs, List.countP_append]
    rfl

theorem headings_eq_zero_iff (text : String) : headings text = 0 ↔ ∀ line ∈ lines text, ¬ isHeading line.toList :=
  List.countP_eq_zero

/-- A text that goes on with a new line. -/
theorem headings_append (front rest : String) : headings (front ++ "\n" ++ rest) = headings front + headings rest := by
  simp only [headings_eq_countP, String.append_assoc, String.toList_append, ← List.countP_append]
  exact congrArg _ (splitChar_append '\n' front.toList rest.toList)

/-! ### Entries -/

variable {candidate : String} {calls : List (String × List Diagnostic)}

/-- The number of lines in the texts of some diagnostics that read as the first of an entry. -/
def headingsIn (ds : List Diagnostic) : Nat := (ds.map (headings ·.text)).sum

theorem headings_join (ds : List Diagnostic) (rest : String) :
    headings (String.join (ds.map (·.text ++ "\n")) ++ rest) = headingsIn ds + headings rest := by
  induction ds with
  | nil => simp [headingsIn]
  | cons d ds ih =>
    rw [List.map_cons, String.join_cons, String.append_assoc, headings_append, ih, headingsIn, headingsIn, List.map_cons,
      List.sum_cons, Nat.add_assoc]

theorem headings_of_candidate (h : '\n' ∉ candidate.toList) : headings ("Error From " ++ candidate) = 1 := by
  have hn : '\n' ∉ ("Error From " ++ candidate).toList := by
    rw [String.toList_append, List.mem_append, not_or]
    exact ⟨by decide, h⟩
  have hp : isHeading ("Error From " ++ candidate).toList := by
    rw [isHeading, List.isPrefixOf_iff_prefix, String.toList_append]
    exact List.prefix_append _ _
  rw [headings_eq_countP, splitChar_of_not_mem hn, List.countP_singleton, if_pos hp]

/-- An entry has its own heading and those in its diagnostics. -/
theorem headings_entry (h : '\n' ∉ candidate.toList) (ds : List Diagnostic) (rest : String) :
    headings (entry candidate ds ++ rest) = 1 + headingsIn ds + headings rest := by
  rw [entry, String.append_assoc, headings_append, headings_of_candidate h, headings_join, Nat.add_assoc]

theorem headingsIn_eq_zero_iff (ds : List Diagnostic) :
    headingsIn ds = 0 ↔ ∀ d ∈ ds, ∀ line ∈ lines d.text, ¬ isHeading line.toList := by
  rw [headingsIn, List.sum_eq_zero_iff_forall_eq_nat, List.forall_mem_map]
  exact forall₂_congr fun d _ => headings_eq_zero_iff d.text

/-- What calls add to a log: text with a heading for each entry, and those in the diagnostics. -/
theorem exists_foldl_record (h : ∀ call ∈ calls, '\n' ∉ call.1.toList) (log : DiagnosticLog) :
    ∃ text count, calls.foldl (fun log call => log.record call.1 call.2) log = ⟨log.text ++ text, log.entries + count⟩ ∧
      headings text = count + (calls.map fun call => headingsIn call.2).sum := by
  induction calls generalizing log with
  | nil => exact ⟨"", 0, by simp, rfl⟩
  | cons call calls ih =>
    obtain ⟨hc, hcs⟩ := List.forall_mem_cons.mp h
    rw [List.foldl_cons, List.map_cons, List.sum_cons]
    by_cases hd : call.2 = []
    · rw [hd, record_nil, headingsIn, List.map_nil, List.sum_nil, Nat.zero_add]
      exact ih hcs log
    · rw [record_of_ne_nil hd]
      obtain ⟨text, count, hl, ht⟩ := ih hcs ⟨log.text ++ entry call.1 call.2, log.entries + 1⟩
      refine ⟨entry call.1 call.2 ++ text, count + 1, ?_, ?_⟩
      · rw [hl, String.append_assoc, Nat.add_assoc, Nat.add_comm 1]
      · rw [headings_entry hc, ht]
        omega

/-- The lines that read as the first of an entry are those of the entries and those in diagnostics. So the entries are
counted rightly by such lines if and only if no diagnostic has one. -/
theorem headings_eq_entries_iff (h : ∀ call ∈ calls, '\n' ∉ call.1.toList) :
    headings (ofCalls calls).text = (ofCalls calls).entries + (calls.map fun call => headingsIn call.2).sum ∧
    (headings (ofCalls calls).text = (ofCalls calls).entries ↔
      ∀ call ∈ calls, ∀ d ∈ call.2, ∀ line ∈ lines d.text, ¬ isHeading line.toList) := by
  have hc : headings (ofCalls calls).text =
      (ofCalls calls).entries + (calls.map fun call => headingsIn call.2).sum := by
    obtain ⟨text, count, hl, ht⟩ := exists_foldl_record h {}
    rw [ofCalls, hl, String.empty_append, ht, Nat.zero_add]
  refine ⟨hc, ?_⟩
  rw [hc, Nat.add_eq_left, List.sum_eq_zero_iff_forall_eq_nat, List.forall_mem_map]
  exact forall₂_congr fun call _ => headingsIn_eq_zero_iff call.2

/-- A panic with its backtrace, and a candidate with nothing to say. -/
def callsOfPanic : List (String × List Diagnostic) :=
  [("crate::A", [{ candidate := "crate::A", severity := .error, message := "boom\n   0: gen::run" }]), ("crate::B", [])]

/-- A backtrace adds lines to an entry and no heading. -/
theorem headings_eq_entries_of_panic : (∀ call ∈ callsOfPanic, '\n' ∉ call.1.toList) ∧
    headings (ofCalls callsOfPanic).text = (ofCalls callsOfPanic).entries := by
  have h : ∀ call ∈ callsOfPanic, '\n' ∉ call.1.toList := by decide
  exact ⟨h, (headings_eq_entries_iff h).2.mpr (by decide +kernel)⟩

/-- The error of a generator that runs a pass of its own, with the text of that pass's log. -/
def callsOfNested : List (String × List Diagnostic) :=
  [("crate::gen::Alpha", [{ candidate := "crate::gen::Alpha", severity := .error, code? := some "SG0106",
                            message := "nested pass failed:\nError From crate::inner::Beta" }])]

/-- The lines of a message are written as they are. -/
theorem not_headings_eq_entries : ¬ ∀ calls : List (String × List Diagnostic), (∀ call ∈ calls, '\n' ∉ call.1.toList) →
    headings (ofCalls calls).text = (ofCalls calls).entries := by
  intro h
  have hn : headings (ofCalls callsOfNested).text ≠ (ofCalls callsOfNested).entries := by decide +kernel
  exact hn (h _ (by decide))

end DiagnosticLog
end GeneratorHost
