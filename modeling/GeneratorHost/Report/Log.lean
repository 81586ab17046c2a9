import GeneratorHost.Report.Diagnostic

/-! The diagnostics of a pass as text, one entry for each candidate that failed, and the comment
that carries them. -/
namespace GeneratorHost

/-- What a pass recorded: its text and the number of entries. -/
structure DiagnosticLog where
  text : String := ""
  entries : Nat := 0
deriving DecidableEq, Repr

namespace DiagnosticLog

/-- Name of the artifact that carries the text. -/
def artifactName : String := "Error.selfgen.g.rs"

/-- The lines about a candidate. -/
def entry (candidate : String) (ds : List Diagnostic) : String :=
  "Error From " ++ candidate ++ "\n" ++ String.join (ds.map (·.text ++ "\n"))

/-- Adds an entry about a candidate unless there is nothing to say. -/
def record (log : DiagnosticLog) (candidate : String) (ds : List Diagnostic) : DiagnosticLog :=
  if ds.isEmpty then log else ⟨log.text ++ entry candidate ds, log.entries + 1⟩

@[simp] theorem record_nil (log : DiagnosticLog) (candidate : String) : log.record candidate [] = log := rfl

theorem record_of_ne_nil {ds : List Diagnostic} (h : ds ≠ []) (log : DiagnosticLog) (candidate : String) :
    log.record candidate ds = ⟨log.text ++ entry candidate ds, log.entries + 1⟩ := by
  rw [record, if_neg]
  rwa [List.isEmpty_iff]

/-- Puts a space into every end of a comment. -/
def openComments : List Char → List Char
  | '*' :: '/' :: cs => '*' :: ' ' :: '/' :: openComments cs
  | c :: cs => c :: openComments cs
  | [] => []

/-- The text as a block comment. -/
def comment (text : String) : String :=
  "/*\n" ++ String.ofList (openComments text.toList) ++ "\n*/"

end DiagnosticLog
end GeneratorHost
