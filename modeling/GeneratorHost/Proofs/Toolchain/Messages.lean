import GeneratorHost.Proofs.Text.Offsets
import GeneratorHost.Toolchain.Message
import Mathlib.Data.List.Basic

/-! Which errors of an output are passed on. All that a line reads as an error comes back as a diagnostic, in the order
of the lines and with its place, unless the line does not begin with a brace or the text begins as the summary does
with which the compiler ends. -/
namespace GeneratorHost

/-- A text without line feeds is its only line. -/
theorem Text.lines_of_not_mem {s : String} (hn : '\n' ∉ s.toList) (hne : s ≠ "") : lines s = [s] := by
  have hs : splitChar '\n' s.toList = [s.toList] := splitChar_of_not_mem hn
  have hl : s.toList.getLast? ≠ some '\n' := fun h => hn (List.mem_of_getLast? h)
  rw [lines, hs]
  simp [hl, hne]

namespace CompilerMessage

/-- The message that a line reads as, if it does. -/
def ofLine? (line : String) : Option CompilerMessage := (JsonValue.ofText? line).bind ofJson?

/-- A line is read character by character. -/
theorem ofLine?_eq {line : String} {cs : List Char} (h : line.toList = cs) : ofLine? line =
    ((JsonValue.value? (2 * cs.length + 2) cs).filter (JsonValue.skipSpace ·.2 |>.isEmpty)).bind (ofJson? ·.1) := by
  rw [ofLine?, JsonValue.ofText?, ← String.length_toList, h]
  cases JsonValue.value? (2 * cs.length + 2) cs with
  | none => rfl
  | some read => cases hr : (JsonValue.skipSpace read.2).isEmpty <;> simp [hr, Option.filter]

/-- The lines of an output that read as messages, each with its message. -/
def read (output : String) : List (String × CompilerMessage) :=
  (Text.lines output).filterMap fun line => (ofLine? line).map (line, ·)

/-- Whether a message is the compiler's own count of the errors before it, which is about no file. -/
def isSummary (m : CompilerMessage) : Bool := m.spans.isEmpty && m.text.startsWith "aborting due to"

/-- Whether a message is an error, of whatever kind, and not the count of others. -/
def isReport (m : CompilerMessage) : Bool := m.level.startsWith "error" && !m.isSummary

/-- The errors that an output reports, each with its line. -/
def reported (output : String) : List (String × CompilerMessage) := (read output).filter (·.2.isReport)

/-- Whether a reported error is passed on. -/
def isPassed (entry : String × CompilerMessage) : Bool :=
  isMessageLine entry.1 && !entry.2.text.startsWith "aborting due to"

/-- Each reported error is passed on, in order. -/
def PassesAll (output candidate : String) (files : FileMap) : Prop :=
  diagnostics output candidate files = (reported output).map fun entry => toDiagnostic candidate files entry.2

variable {m : CompilerMessage} {entry : String × CompilerMessage} {output : String}

/-- What counts as an error of its own is a report, for a summary begins as the errors that do not count. -/
theorem isReport_of_isError (h : m.isError = true) : m.isReport = true := by
  obtain ⟨hl, ht⟩ := Bool.and_eq_true_iff.mp h
  rw [isReport, isSummary, hl, Bool.not_and, ht, Bool.or_true]
  rfl

/-- A report that is passed on is an error of its own, on a line that is meant as a message. -/
theorem isReport_and_isPassed_iff : (entry.2.isReport && isPassed entry) = (isMessageLine entry.1 && entry.2.isError) := by
  cases he : entry.2.isError with
  | true =>
    obtain ⟨-, ht⟩ := Bool.and_eq_true_iff.mp he
    rw [isReport_of_isError he, isPassed, ht, Bool.true_and]
  | false =>
    rw [Bool.and_false, Bool.and_eq_false_iff]
    by_contra h
    rw [not_or, Bool.not_eq_false, Bool.not_eq_false, isReport, isPassed, Bool.and_eq_true, Bool.and_eq_true] at h
    obtain ⟨⟨hl, -⟩, -, ht⟩ := h
    rw [isError, hl, ht] at he
    cases he

/-- The errors are the reports that are passed on. -/
theorem errors_eq (output : String) : errors output = ((reported output).filter isPassed).map Prod.snd := by
  have hkept (entry : String × CompilerMessage) : (isPassed entry && entry.2.isReport) =
      (isMessageLine entry.1 && entry.2.isError) := by
    rw [Bool.and_comm, isReport_and_isPassed_iff]
  rw [reported, List.filter_filter, funext hkept]
  change (((Text.lines output).filter isMessageLine).filterMap ofLine?).filter isError = _
  rw [read]
  induction Text.lines output with
  | nil => rfl
  | cons line lines ih =>
    cases hm : ofLine? line with
    | none => cases hb : isMessageLine line <;> simp [hm, hb, ih]
    | some m => cases hb : isMessageLine line <;> cases he : m.isError <;> simp [hm, hb, he, ih]

theorem diagnostics_eq (output candidate : String) (files : FileMap) : diagnostics output candidate files =
    ((reported output).filter isPassed).map fun entry => toDiagnostic candidate files entry.2 := by
  rw [diagnostics, errors_eq, List.map_map]
  rfl

theorem passesAll_iff {candidate : String} {files : FileMap} :
    PassesAll output candidate files ↔ ∀ entry ∈ reported output, isPassed entry := by
  rw [PassesAll, diagnostics_eq]
  constructor
  · intro h
    have hlength := congrArg List.length h
    rw [List.length_map, List.length_map] at hlength
    exact List.length_filter_eq_length_iff.mp hlength
  · intro h
    rw [List.filter_eq_self.mpr h]

/-- A message is about its first primary span, if it has one. -/
theorem toDiagnostic_of_primary {s : MessageSpan} (candidate : String) (files : FileMap)
    (h : m.spans.find? (·.isPrimary) = some s) : toDiagnostic candidate files m =
      ⟨candidate, .error, m.code?, m.text, some ⟨files.display s.file, s.line, s.column⟩⟩ := by
  rw [toDiagnostic, mainSpan?, h]
  rfl

/-- The diagnostics are reported errors, in the order of the lines, each with the text, the code and the place of its
first primary span. None is missing exactly if each reported error is on a line that begins with a brace and its text,
whatever its spans, does not begin as a summary. -/
theorem diagnostics_complete_iff (output candidate : String) (files : FileMap) :
    (∃ passed : List (String × CompilerMessage), passed.Sublist (reported output) ∧
      diagnostics output candidate files = passed.map fun entry => toDiagnostic candidate files entry.2) ∧
    (∀ m s, m.spans.find? (·.isPrimary) = some s → toDiagnostic candidate files m =
      ⟨candidate, .error, m.code?, m.text, some ⟨files.display s.file, s.line, s.column⟩⟩) ∧
    (PassesAll output candidate files ↔ ∀ line m, (line, m) ∈ reported output →
      isMessageLine line = true ∧ m.text.startsWith "aborting due to" = false) := by
  refine ⟨⟨_, List.filter_sublist, diagnostics_eq output candidate files⟩,
    fun m s => toDiagnostic_of_primary candidate files, ?_⟩
  rw [passesAll_iff, Prod.forall]
  simp only [isPassed, Bool.and_eq_true, Bool.not_eq_true']

theorem mem_reported {line : String} (hn : '\n' ∉ line.toList) (hne : line ≠ "") (hm : ofLine? line = some m)
    (hr : m.isReport = true) : (line, m) ∈ reported line := by
  refine List.mem_filter.mpr ⟨List.mem_filterMap.mpr ⟨line, ?_, by rw [hm]; rfl⟩, hr⟩
  rw [Text.lines_of_not_mem hn hne]
  exact List.mem_singleton_self line

/-- An error of the program itself, whose text begins as the compiler's summary does. -/
def abortingError : CompilerMessage :=
  ⟨"aborting due to missing settings", none, "error", [⟨"/w/src/a.rs", 3, 1, true⟩]⟩

def abortingLine : String :=
  "\x7b\"message\":\"aborting due to missing settings\",\"code\":null,\"level\":\"error\",\"spans\":[" ++
    "\x7b\"file_name\":\"/w/src/a.rs\",\"line_start\":3,\"column_start\":1,\"is_primary\":true\x7d]\x7d"

set_option maxRecDepth 4000 in
theorem mem_reported_abortingLine : (abortingLine, abortingError) ∈ reported abortingLine := by
  have hs : abortingLine.toList = _ ++ _ :=
    String.toList_append.trans (congrArg₂ _ String.toList_ofList String.toList_ofList)
  refine mem_reported ?_ (by decide) ?_ (by decide +kernel)
  · rw [hs]
    decide
  · rw [ofLine?_eq hs]
    decide +kernel

/-- That error is reported, at a place of the program, and not passed on. -/
theorem not_passesAll : ¬ ∀ output candidate files, PassesAll output candidate files := by
  intro h
  have hpassed := passesAll_iff.mp (h abortingLine "crate::A" [("/w/src/a.rs", "a.rs")]) _ mem_reported_abortingLine
  rw [isPassed, Bool.and_eq_true] at hpassed
  exact absurd hpassed.2 (by decide +kernel)

end CompilerMessage
end GeneratorHost
