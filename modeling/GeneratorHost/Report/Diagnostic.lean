/-! Diagnostics: what is reported about a candidate. -/
namespace GeneratorHost

inductive Severity where
  | note
  | warning
  | error
deriving DecidableEq, Repr

namespace Severity

def label : Severity → String
  | note => "note"
  | warning => "warning"
  | error => "error"

end Severity

/-- A place in a file of the host. -/
structure Location where
  file : String
  line : Nat
  column : Nat
deriving DecidableEq, Repr

namespace Location

def text (l : Location) : String := l.file ++ ":" ++ toString l.line ++ ":" ++ toString l.column

end Location

/-- A message about a candidate. -/
structure Diagnostic where
  candidate : String
  severity : Severity
  code? : Option String := none
  message : String
  location? : Option Location := none
deriving DecidableEq, Repr

namespace Diagnostic

def isError (d : Diagnostic) : Bool := d.severity = .error

/-- Code, message and place on a line. -/
def text (d : Diagnostic) : String :=
  (match d.code? with
    | some code => code ++ " "
    | none => "") ++ d.message ++
  match d.location? with
    | some location => " (" ++ location.text ++ ")"
    | none => ""

end Diagnostic
end GeneratorHost
