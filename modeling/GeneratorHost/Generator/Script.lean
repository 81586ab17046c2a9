import GeneratorHost.Generator.Run

/-! Generators that follow a script, a list of steps written as words. -/
namespace GeneratorHost

inductive ScriptStep where
  | add (name text : String)
  /-- Adds a source and notes whether the host took it. -/
  | tryAdd (name text : String)
  | report (text : String)
  /-- Notes how many sources were added. -/
  | count
  /-- Notes the declarations of a file, or all of them. -/
  | nodes (file : String)
  /-- Notes the names of the declarations of a kind. -/
  | kinds (kind file : String)
  /-- Notes the names of the declarations that carry an attribute or implement a trait. -/
  | having (path : String)
  | sleep (time : Duration)
  | fail (text : String)
  | panic (payload : Payload)
  | constructorPanic (payload : Payload)
  | disposalPanic (payload : Payload)
deriving DecidableEq, Repr

namespace ScriptStep

/-- Reads a step; words that are missing are empty, and an unknown step is none. -/
def ofWords? (words : List String) : Option ScriptStep :=
  let word (i : Nat) : String := words[i]?.getD ""
  match words.head? with
  | some "add" => some (add (word 1) (word 2))
  | some "try_add" => some (tryAdd (word 1) (word 2))
  | some "report" => some (report (word 1))
  | some "count" => some count
  | some "nodes" => some (nodes (word 1))
  | some "kinds" => some (kinds (word 1) (word 2))
  | some "with" => some (having (word 1))
  | some "sleep" => some (sleep (.ofMilliseconds ((word 1).toNat?.getD 0)))
  | some "err" => some (fail (word 1))
  | some "panic_str" => some (panic (.borrowed (word 1)))
  | some "panic_string" => some (panic (.owned (word 1)))
  | some "panic_other" => some (panic .other)
  | some "ctor_panic_str" => some (constructorPanic (.borrowed (word 1)))
  | some "ctor_panic_string" => some (constructorPanic (.owned (word 1)))
  | some "ctor_panic_other" => some (constructorPanic .other)
  | some "drop_panic_str" => some (disposalPanic (.borrowed (word 1)))
  | some "drop_panic_string" => some (disposalPanic (.owned (word 1)))
  | _ => none

end ScriptStep

namespace DeclarationView

/-- Whether a declaration is in a file; the empty name stands for every file. -/
def isIn (file : String) (d : DeclarationView) : Bool := file = "" || d.file = file

/-- A declaration on a line. -/
def line (d : DeclarationView) : String :=
  let place (p : Position) : String := toString p.line ++ ":" ++ toString p.column
  let symbol := match d.symbol? with
    | some s =>
      s.kind ++ " " ++ s.name ++ " " ++ s.qualifiedName ++ " in " ++ s.nameSpace ++
        " [" ++ ",".intercalate s.attributes ++ "] <" ++ ",".intercalate s.interfaces ++ ">"
    | none => "-"
  " ".intercalate [toString d.index, d.kind, d.file,
    place d.extent.start ++ "-" ++ place d.extent.stop,
    (d.parent?.map fun parent => toString parent).getD "-", toString d.text.utf8ByteSize, symbol]

/-- Names of declarations on a line. -/
def names (ds : List DeclarationView) : String :=
  " ".intercalate (ds.map fun d => d.name?.getD "-")

/-- Whether a declaration carries an attribute or implements a trait. -/
def carries (path : String) (d : DeclarationView) : Bool :=
  match d.symbol? with
  | some s => s.hasAttribute path || s.implements path
  | none => false

end DeclarationView

namespace ScriptStep

/-- What a step does while the generator runs. -/
def run (site : PanicSite) (ds : List DeclarationView) (c : GeneratorContext) :
    ScriptStep → Run GeneratorContext
  | add name text => c.addSource site name text
  | tryAdd name text => do
    match ← (c.addSource site name text).caught with
    | .ok c => do Run.note "accepted"; return c
    | .error _ => do Run.note "rejected"; return c
  | report text => do Run.note text; return c
  | count => do Run.note ("added " ++ toString c.added); return c
  | nodes file => do (ds.filter (·.isIn file)).forM fun d => Run.note d.line; return c
  | kinds kind file => do
    Run.note (DeclarationView.names (ds.filter fun d => d.kind = kind && d.isIn file)); return c
  | having path => do Run.note (DeclarationView.names (ds.filter (·.carries path))); return c
  | sleep time => .pause time (.done c)
  | fail text => .failed { text? := some text }
  | panic payload => .panicked { payload, site }
  | constructorPanic _ | disposalPanic _ => .done c

end ScriptStep

/-- Steps in order. -/
abbrev Script := List ScriptStep

namespace Script

/-- Runs the steps one after the other. -/
def run (site : PanicSite) (ds : List DeclarationView) : Script → GeneratorContext → Run Unit
  | [], _ => .done ()
  | step :: rest, c => (step.run site ds c).bind (run site ds rest)

/-- The generator that follows a script; all its panics are raised at one site. -/
def generator (site : PanicSite) (s : Script) : Generator where
  construction? := s.findSome? fun
    | .constructorPanic payload => some { payload, site }
    | _ => none
  execute ds := s.run site ds {}
  disposal? := s.findSome? fun
    | .disposalPanic payload => some { payload, site }
    | _ => none

end Script
end GeneratorHost
