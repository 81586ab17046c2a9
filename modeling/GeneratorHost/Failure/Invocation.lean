import GeneratorHost.Report.Diagnostic
import GeneratorHost.Report.Duration
import GeneratorHost.Text.Split

/-! Why a unit could not be run to its end. -/
namespace GeneratorHost

/-- What a unit reports about a panic or an error that it returned. -/
structure PanicReport where
  typeName : String
  message : String
  location : String
  backtrace : String
deriving DecidableEq, Repr, Inhabited

namespace PanicReport

def text (r : PanicReport) : String :=
  r.typeName ++ " " ++ r.message ++ if r.location = "" then "" else " at " ++ r.location

end PanicReport

inductive InvocationError where
  | load (name reason : String)
  | typeNotFound (name symbol : String)
  | entryPointNotFound (name symbol : String)
  | constructionFailed (name reason : String)
  | runtime (name : String) (report : PanicReport)
  | returned (name message : String)
  | timedOut (name : String) (deadline : Duration)
deriving DecidableEq, Repr

namespace InvocationError

/-- The qualified name of the generator. -/
def name : InvocationError → String
  | load n _ | typeNotFound n _ | entryPointNotFound n _ | constructionFailed n _ | runtime n _
  | returned n _ | timedOut n _ => n

def message : InvocationError → String
  | load n reason => "Failed to load unit for " ++ n ++ ": " ++ reason
  | typeNotFound n symbol =>
    "Type " ++ n ++ " not found in its compiled unit (missing " ++ symbol ++ ")"
  | entryPointNotFound n symbol => "Entry point " ++ symbol ++ " not found for " ++ n
  | constructionFailed n reason => "Constructing " ++ n ++ " failed: " ++ reason
  | runtime n report => n ++ " panicked: " ++ report.text
  | returned n message => n ++ " returned an error: " ++ message
  | timedOut n deadline => n ++ " did not finish within " ++ deadline.text

def code : InvocationError → String
  | load .. => "SG0101"
  | typeNotFound .. => "SG0102"
  | entryPointNotFound .. => "SG0103"
  | constructionFailed .. => "SG0104"
  | runtime .. => "SG0105"
  | returned .. => "SG0106"
  | timedOut .. => "SG0107"

/-- The backtrace of a panic that has one. -/
def backtrace : InvocationError → String
  | runtime _ report => if report.backtrace = "" then "" else "\n" ++ Text.trimEnd report.backtrace
  | _ => ""

/-- What is recorded about the candidate, with the backtrace of a panic. -/
def toDiagnostic (e : InvocationError) : Diagnostic :=
  { candidate := e.name, severity := .error, code? := some e.code, message := e.message ++ e.backtrace }

end InvocationError
end GeneratorHost
