import GeneratorHost.Report.Diagnostic
import GeneratorHost.Report.Duration

/-! Why a candidate could not be made into a unit. -/
namespace GeneratorHost

inductive CompileError where
  | configuration (candidate reason : String)
  | diagnostics (candidate : String) (diagnostics : List Diagnostic)
  | toolchain (candidate reason : String)
  | timedOut (candidate : String) (deadline : Duration)
  | io (candidate source : String)
deriving DecidableEq, Repr

namespace CompileError

def candidate : CompileError → String
  | configuration c _ | diagnostics c _ | toolchain c _ | timedOut c _ | io c _ => c

def message : CompileError → String
  | configuration c reason => "Configuration error for " ++ c ++ ": " ++ reason
  | diagnostics c ds => c ++ " failed to compile with " ++ toString ds.length ++ " error(s)"
  | toolchain c reason => "Toolchain failure while compiling " ++ c ++ ": " ++ reason
  | timedOut c deadline => "Compiling " ++ c ++ " exceeded the " ++ deadline.text ++ " deadline"
  | io c source => "I/O error while compiling " ++ c ++ ": " ++ source

/-- The code of an error that stands for itself. -/
def code? : CompileError → Option String
  | configuration .. => some "SG0001"
  | diagnostics .. => none
  | toolchain .. => some "SG0002"
  | timedOut .. => some "SG0003"
  | io .. => some "SG0004"

/-- What is recorded about the candidate: its diagnostics, or the error itself. -/
def toDiagnostics : CompileError → List Diagnostic
  | diagnostics _ ds => ds
  | e => [{ candidate := e.candidate, severity := .error, code? := e.code?, message := e.message }]

end CompileError
end GeneratorHost
