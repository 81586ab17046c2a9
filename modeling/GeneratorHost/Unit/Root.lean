import GeneratorHost.Generator.EntryPoint
import GeneratorHost.Grammar.Parse
import GeneratorHost.Host.Edition

/-! The generated root of a unit: it mounts the support module and the candidate's file and exports
the entry points. A name that cannot be written makes a root impossible. -/
namespace GeneratorHost.UnitRoot

/-- Tokens of words and marks with blanks between them. -/
def phrase (s : String) : List Token :=
  (Text.splitChar ' ' s.toList).flatMap fun
    | [] => []
    | c :: cs =>
      if Text.startsIdentifier c then [.word (String.ofList (c :: cs))] else Token.mark (c :: cs)

def group (d : Delimiter) (content : List Token) : List Token := [.group d content default]

/-- A text as a literal. -/
def literal (s : String) : List Token := [.literal (Text.quotedLiteral s.toList) default]

/-- Whether a text has the characters of an identifier. -/
def isIdentifier : List Char → Bool
  | [] => false
  | c :: cs => Text.startsIdentifier c && cs.all Text.continuesIdentifier

/-- A path segment as an identifier, raw where the plain one is reserved. -/
def segment? (name : String) : Option Token :=
  if !isIdentifier name.toList then none
  else if isNameText name then some (.word name)
  else if Token.neverRaw name.toList then none
  else some (.ident true name default)

/-- The segments of a path behind the crate. -/
def segments (path : String) : List String :=
  ((Text.splitColons path.toList).map String.ofList).dropWhile (· = "crate")

/-- A path from the crate. -/
def cratePath? (path : String) : Option (List Token) :=
  ((segments path).mapM segment?).map fun names =>
    .word "crate" :: names.flatMap fun name => phrase "::" ++ [name]

/-- A module mounted at a file, inside the modules around it; the crate itself needs none. -/
def mount? (module file : String) : Option (List Token) :=
  ((segments module).mapM segment?).map fun names =>
    match names.reverse with
    | [] => []
    | last :: parents =>
      let mounted := phrase "#" ++ group .bracket (phrase "path =" ++ literal file) ++
        phrase "pub mod" ++ [last] ++ phrase ";"
      parents.foldl (fun inner parent => phrase "pub mod" ++ [parent] ++ group .brace inner) mounted

/-- The attribute that exports a function under its own name. -/
def exported : Edition → List Token
  | .e2024 => phrase "#" ++ group .bracket (phrase "unsafe" ++ group .parenthesis (phrase "no_mangle"))
  | _ => phrase "#" ++ group .bracket (phrase "no_mangle")

/-- An exported function that calls the support module with the generator's type. -/
def function (edition : Edition) (symbol : String) (parameters result support : List Token)
    (callee : String) (type : List Token) (arguments : String) : List Token :=
  exported edition ++ phrase "pub unsafe extern" ++ literal "C" ++ phrase "fn" ++
    [.word symbol] ++ group .parenthesis parameters ++ result ++
    group .brace (phrase "unsafe" ++ group .brace (support ++ phrase "::" ++ [.word callee] ++
      phrase ":: <" ++ type ++ phrase ">" ++ group .parenthesis (phrase arguments)))

/-- The functions that construct, run and release a generator, with the paths to its type and to the
support module. -/
def entryPoints (name : String) (edition : Edition) (type support : List Token) : List Token :=
  let address := phrase "* mut :: core :: ffi :: c_void"
  let sink := phrase "sink : * const" ++ support ++ phrase ":: RawSink"
  let instance_ := phrase "instance :" ++ address
  let nodes := phrase "nodes : * const" ++ support ++ phrase ":: RawDeclaration"
  let comma := phrase ","
  function edition (EntryPoint.construct.symbol name) sink (phrase "->" ++ address) support
      "construct_entry" type "sink" ++
    function edition (EntryPoint.execute.symbol name)
      (instance_ ++ comma ++ sink ++ comma ++ nodes ++ comma ++ phrase "count : usize" ++ comma)
      (phrase "-> i32") support "execute_entry" type "instance , sink , nodes , count" ++
    function edition (EntryPoint.release.symbol name) instance_ [] support
      "release_entry" type "instance"

/-- The entry points of a unit, if all names on the two paths can be written. -/
def entryPoints? (name support : String) (edition : Edition) : Option (List Token) := do
  let type ← cratePath? name
  let support ← cratePath? ("crate::" ++ support)
  return entryPoints name edition type support

/-- The root of a unit whose candidate is in a file of its own. -/
def separate? (name module file support supportFile : String) (edition : Edition) : Option String := do
  let supportMount ← mount? ("crate::" ++ support) supportFile
  let candidate ← mount? module file
  let exports ← entryPoints? name support edition
  return "// Generated by selfgen for " ++ name ++ ".\n" ++
    Token.textAll (supportMount ++ candidate ++ exports) ++ "\n"

/-- Whether a declaration is a module in a file of its own with the spelling of a name. -/
def declares (name : String) (d : Declaration) : Bool :=
  match d.head with
  | .module declared raw false => name = (if raw then "r#" ++ declared else declared)
  | _ => false

/-- Whether a crate root declares the support module. -/
def declaresSupport (text support : String) : Bool :=
  match SourceFile.ofText? text with
  | some file => file.items.any (declares support)
  | none => false

/-- The root of a unit whose candidate is in the crate root: that text with the rest behind it. -/
def joined? (name text support supportFile : String) (edition : Edition) : Option String := do
  let mounted ←
    if declaresSupport text support then pure ""
    else (mount? ("crate::" ++ support) supportFile).map fun ts => Token.textAll ts ++ "\n"
  let exports ← entryPoints? name support edition
  return text ++ (if text.endsWith "\n" then "" else "\n") ++ "\n// Generated by selfgen.\n" ++
    mounted ++ Token.textAll exports ++ "\n"

end GeneratorHost.UnitRoot
