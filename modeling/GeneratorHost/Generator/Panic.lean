import GeneratorHost.Failure.Invocation

/-! Panics inside a unit and what the host is told about them. -/
namespace GeneratorHost

/-- The value that a panic carries. -/
inductive Payload where
  | borrowed (text : String)
  | owned (text : String)
  | other
deriving DecidableEq, Repr

namespace Payload

def typeName : Payload → String
  | borrowed _ => "&str"
  | owned _ => "alloc::string::String"
  | other => "Box<dyn Any + Send>"

/-- The text of a payload that is text. -/
def message : Payload → String
  | borrowed text | owned text => text
  | other => "panic payload is not a string"

end Payload

/-- Where a panic was raised. -/
structure PanicSite where
  location : String := ""
  backtrace : String := ""
deriving DecidableEq, Repr, Inhabited

/-- A panic. Its payload goes away once the panic is reported, which may raise another one. -/
structure Panic where
  payload : Payload
  site : PanicSite := {}
  dropsQuietly : Bool := true
deriving DecidableEq, Repr

namespace Panic

def report (p : Panic) : PanicReport where
  typeName := p.payload.typeName
  message := p.payload.message
  location := p.site.location
  backtrace := p.site.backtrace

end Panic

/-- An error that a generator returns: its text, unless writing it panics, and whether the error
goes away quietly. -/
structure ReturnedError where
  text? : Option String
  dropsQuietly : Bool := true
deriving DecidableEq, Repr

namespace ReturnedError

def typeName : String := "generator error"

/-- What the host is told about an error with a text. -/
def report (text : String) : PanicReport := ⟨typeName, text, "", ""⟩

end ReturnedError
end GeneratorHost
