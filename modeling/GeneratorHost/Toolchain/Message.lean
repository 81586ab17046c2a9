import GeneratorHost.Json.Reader
import GeneratorHost.Report.Diagnostic
import GeneratorHost.Text.FilePath

/-! What the compiler prints: a JSON message on each line that begins with a brace, and plain
lines. -/
namespace GeneratorHost

/-- A stretch of a file that a message is about. -/
structure MessageSpan where
  file : String
  line : Nat
  column : Nat
  isPrimary : Bool
deriving DecidableEq, Repr

/-- A message of the compiler. -/
structure CompilerMessage where
  text : String
  code? : Option String
  level : String
  spans : List MessageSpan
deriving DecidableEq, Repr

/-- The largest line or column. -/
def maxPosition : Nat := 4294967295

namespace MessageSpan

def ofJson? (v : JsonValue) : Option MessageSpan := do
  match ← v.members? ["file_name", "line_start", "column_start", "is_primary"] with
  | [some file, some line, some column, some primary] =>
    return ⟨← file.text?, ← line.nat? maxPosition, ← column.nat? maxPosition, ← primary.bool?⟩
  | _ => none

end MessageSpan

namespace CompilerMessage

/-- The code of a message, which may be missing or null. -/
def codeOfJson? : Option JsonValue → Option (Option String)
  | none | some .null => some none
  | some v => do
    match ← v.members? ["code"] with
    | [some code] => return some (← code.text?)
    | _ => none

/-- The spans of a message, which may be missing. -/
def spansOfJson? : Option JsonValue → Option (List MessageSpan)
  | none => some []
  | some v => v.elements?.bind (·.mapM MessageSpan.ofJson?)

def ofJson? (v : JsonValue) : Option CompilerMessage := do
  match ← v.members? ["message", "code", "level", "spans"] with
  | [some text, code, some level, spans] =>
    return ⟨← text.text?, ← codeOfJson? code, ← level.text?, ← spansOfJson? spans⟩
  | _ => none

/-- Whether a message is an error of its own and not the summary of others. -/
def isError (m : CompilerMessage) : Bool :=
  m.level.startsWith "error" && !m.text.startsWith "aborting due to"

/-- The first primary span, or else the first. -/
def mainSpan? (m : CompilerMessage) : Option MessageSpan :=
  (m.spans.find? (·.isPrimary)).orElse fun _ => m.spans.head?

end CompilerMessage

/-- Files written for a compiler run, each with the name it is shown under. -/
abbrev FileMap := List (String × String)

namespace FileMap

/-- The shorter of two written paths, the first if both are equally long. -/
def shorter (best? : Option (FilePath × String)) (entry : FilePath × String) : FilePath × String :=
  match best? with
  | some best => if entry.1.length < best.1.length then entry else best
  | none => entry

/-- The name a reported file is shown under: that of the shortest written path that ends in it. -/
def display (files : FileMap) (reported : String) : String :=
  let path := FilePath.ofText reported
  let matching := (files.map fun (written, shown) => (FilePath.ofText written, shown)).filter
    fun (written, _) => written.endsWith path
  match matching.foldl (fun best? entry => some (shorter best? entry)) none with
  | some (_, shown) => shown
  | none => reported

end FileMap

namespace CompilerMessage

/-- Whether a line is meant as a message. -/
def isMessageLine (line : String) : Bool := line.startsWith "\x7b"

/-- The errors among the messages of an output. -/
def errors (output : String) : List CompilerMessage :=
  ((Text.lines output).filter isMessageLine).filterMap
      (fun line => (JsonValue.ofText? line).bind ofJson?)
    |>.filter isError

def toDiagnostic (candidate : String) (files : FileMap) (m : CompilerMessage) : Diagnostic :=
  { candidate, severity := .error, code? := m.code?, message := m.text
    location? := m.mainSpan?.map fun s => ⟨files.display s.file, s.line, s.column⟩ }

/-- The error diagnostics of an output. -/
def diagnostics (output candidate : String) (files : FileMap) : List Diagnostic :=
  (errors output).map (toDiagnostic candidate files)

/-- The lines of an output that are no messages. -/
def plainLines (output : String) : String :=
  Text.trim ("\n".intercalate ((Text.lines output).filter (!isMessageLine ·)))

end CompilerMessage
end GeneratorHost
