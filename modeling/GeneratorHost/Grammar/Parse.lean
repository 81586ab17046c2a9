import GeneratorHost.Grammar.Item
import GeneratorHost.Token.Lexer

/-! The grammar tied together, and reading of files, paths, types and names. -/
namespace GeneratorHost

open Grammar in
/-- All productions down to a nesting depth. -/
def grammar : Nat → Grammar
  | 0, _ => failure
  | depth + 1, .expression structs => expression (grammar depth) structs
  | depth + 1, .unary structs => unary (grammar depth) structs
  | depth + 1, .early => early (grammar depth)
  | depth + 1, .operators structs left base => operators (grammar depth) structs left base
  | depth + 1, .type plus => type (grammar depth) plus
  | depth + 1, .pattern => pattern (grammar depth)
  | depth + 1, .bound capture const => bound (grammar depth) capture const
  | depth + 1, .statements => statements (grammar depth)
  | depth + 1, .item => item (grammar depth)
  | depth + 1, .useTree root => useTree (grammar depth) root
  | depth + 1, .namedFields => namedFields (grammar depth)

namespace Grammar

open Reader

/-- Nesting cannot go deeper than the tokens allow: at least one in eight steps down reads one. -/
def depthFor (ts : List Token) : Nat := 8 * Token.sizeAll ts + 16

/-- Reads all tokens with a production. -/
def parseAll {α : Type} (p : Grammar → Reader α) (ts : List Token) : Option (α × ReaderState) :=
  match p (grammar (depthFor ts)) ⟨ts, #[], #[]⟩ with
  | some (a, s) => if s.rest.isEmpty then some (a, s) else none
  | none => none

/-- The items of a file behind the attributes at its front. What those have in them does not count. -/
def file (g : Grammar) : Reader Unit := do
  let _ ← collecting (innerAttributes g)
  untilEnd (g .item)

end Grammar

namespace SourceFile

/-- A text without the byte order mark at its front. -/
def unmarked : List Char → List Char
  | c :: rest => if c.toNat = 0xfeff then rest else c :: rest
  | [] => []

/-- A text without the line that names an interpreter, which an exclamation mark begins that no
attribute follows. -/
def behindInterpreter (cs : List Char) : List Char :=
  match cs with
  | '#' :: '!' :: rest =>
    match (Token.skipBlanks rest.length ⟨rest, .origin⟩).rest with
    | '[' :: _ => cs
    | _ => cs.dropWhile (· ≠ '\n')
  | _ => cs

/-- What is read of a file's text. -/
def content (cs : List Char) : List Char := behindInterpreter (unmarked cs)

def ofTokens? (ts : List Token) : Option SourceFile :=
  (Grammar.parseAll Grammar.file ts).map fun (_, s) => ⟨s.found.toList⟩

/-- The declarations of a file, or nothing if it does not parse. -/
def ofText? (text : String) : Option SourceFile :=
  (Token.ofChars? (content text.toList)).bind ofTokens?

end SourceFile

/-- Reads a path, generic arguments allowed. -/
def Path.ofText? (text : String) : Option Path := do
  let ts ← Token.ofText? text
  let (shape, _) ← Grammar.parseAll (Grammar.path · false) ts
  return shape.path

/-- Reads a type. -/
def TypeRef.ofText? (text : String) : Option TypeRef := do
  let ts ← Token.ofText? text
  let (shape, s) ← Grammar.parseAll (Grammar.type · true) ts
  return ⟨shape.path?, Token.textAll s.written.toList⟩

/-- Whether a text is a single name, blanks and comments around it allowed. -/
def isNameText (text : String) : Bool :=
  match Token.ofText? text with
  | some [t] => Reader.isName [t]
  | _ => false

end GeneratorHost
