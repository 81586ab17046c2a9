import GeneratorHost.Declaration.Basic
import GeneratorHost.Token.Number
import GeneratorHost.Token.Printer

/-! Readers: recognizers over the tokens of one group that write down the tokens as they print and
the declarations found on the way, in visiting order. -/
namespace GeneratorHost

/-- Tokens not read yet, tokens written and declarations found. -/
structure ReaderState where
  rest : List Token
  written : Array Token
  found : Array Declaration

abbrev Reader := StateT ReaderState Option

namespace Reader

variable {α β : Type}

/-! ### Looking ahead -/

/-- The characters of a mark at the front; all but the last must be joint. -/
def marks : List Char → List Token → Bool
  | [c], .punct d _ _ :: _ => c = d
  | c :: cs, .punct d true _ :: ts => c = d && marks cs ts
  | _, _ => false

def isMark (mark : String) (ts : List Token) : Bool := marks mark.toList ts

def isWord (word : String) : List Token → Bool
  | .ident false name _ :: _ => name = word
  | _ => false

/-- Words that cannot be names. -/
def reserved : List String :=
  ["_", "abstract", "as", "async", "await", "become", "box", "break", "const", "continue", "crate",
    "do", "dyn", "else", "enum", "extern", "false", "final", "fn", "for", "if", "impl", "in", "let",
    "loop", "macro", "match", "mod", "move", "mut", "override", "priv", "pub", "ref", "return",
    "Self", "self", "static", "struct", "super", "trait", "true", "try", "type", "typeof", "unsafe",
    "unsized", "use", "virtual", "where", "while", "yield"]

def isName : List Token → Bool
  | .ident raw name _ :: _ => raw || !reserved.contains name
  | _ => false

/-- Whether an identifier is written raw. -/
def isRaw : List Token → Bool
  | .ident raw _ _ :: _ => raw
  | _ => false

def isAnyName : List Token → Bool
  | .ident .. :: _ => true
  | _ => false

def isGroup (delimiter : Delimiter) : List Token → Bool
  | .group d _ _ :: _ => d = delimiter
  | _ => false

def isLifetime : List Token → Bool
  | .punct c true _ :: .ident .. :: _ => c = Token.apostrophe
  | _ => false

/-- A number, with or without a minus sign before it. -/
def isNumber : List Token → Bool
  | .literal spelling _ :: _ => (Token.numberKind? spelling.toList).isSome
  | _ => false

/-- A literal, a truth value or a negative number. -/
def isLiteral : List Token → Bool
  | .literal .. :: _ => true
  | .punct '-' _ _ :: ts => isNumber ts
  | ts => isWord "true" ts || isWord "false" ts

def isTextLiteral : List Token → Bool
  | .literal spelling _ :: _ =>
    match spelling.toList with
    | c :: _ => c = Token.quotation || c = 'r'
    | [] => false
  | _ => false

/-- A literal that spells a number of the kind, sign included. -/
def isNumberOf (kind : Token.NumberKind) : List Token → Bool
  | .literal spelling _ :: _ => Token.numberKind? spelling.toList = some kind
  | .punct '-' _ _ :: .literal spelling _ :: _ => Token.numberKind? spelling.toList = some kind
  | _ => false

/-- The tokens behind the first; a lifetime counts as one. -/
def skip : List Token → List Token
  | .punct c joint e :: ts =>
    if c = Token.apostrophe && isLifetime (.punct c joint e :: ts) then ts.drop 1 else ts
  | _ :: ts => ts
  | [] => []

/-! ### Steps -/

/-- Tests the tokens ahead. -/
def ahead (test : List Token → Bool) : Reader Bool := return test (← get).rest

/-- Tests the tokens behind the next one. -/
def ahead2 (test : List Token → Bool) : Reader Bool := ahead fun ts => test (skip ts)

/-- Tests the tokens behind the next two. -/
def ahead3 (test : List Token → Bool) : Reader Bool := ahead fun ts => test (skip (skip ts))

def atEnd : Reader Bool := ahead List.isEmpty

/-- Succeeds where the test holds. -/
def require (condition : Bool) : Reader Unit := if condition then pure () else failure

/-- Writes tokens without reading any. -/
def write (ts : List Token) : Reader Unit :=
  modify fun s => { s with written := s.written ++ ts }

/-- Records a declaration. -/
def declare (d : Declaration) : Reader Unit :=
  modify fun s => { s with found := s.found.push d }

def declareAll (ds : List Declaration) : Reader Unit :=
  modify fun s => { s with found := s.found ++ ds }

/-- Reads one token and writes it as it stands. -/
def anyToken : Reader Token := do
  let s ← get
  match s.rest with
  | [] => failure
  | t :: ts =>
    set { s with rest := ts, written := s.written.push t }
    return t

/-- Characters of a mark, rewritten so that all but the last are joint. -/
def takeMark : List Char → List Token → Option (List Token × List Token)
  | [c], .punct d _ e :: ts => if c = d then some ([.punct c false e], ts) else none
  | c :: cs, .punct d true e :: ts =>
    if c = d then (takeMark cs ts).map fun (marks, rest) => (.punct c true e :: marks, rest) else none
  | _, _ => none

def mark (text : String) : Reader Unit := do
  let s ← get
  match takeMark text.toList s.rest with
  | some (marks, rest) => set { s with rest, written := s.written ++ marks }
  | none => failure

/-- A single character of punctuation, written as a mark of its own. -/
def anyMark : Reader Char := do
  match (← get).rest with
  | .punct c _ _ :: _ =>
    mark c.toString
    return c
  | _ => failure

def word (text : String) : Reader Unit := do
  require (← ahead (isWord text))
  let _ ← anyToken

/-- Reads the mark if it is next and tells whether it was. -/
def mark? (text : String) : Reader Bool := do
  if ← ahead (isMark text) then
    mark text
    return true
  return false

/-- Reads the word if it is next and tells whether it was. -/
def word? (text : String) : Reader Bool := do
  if ← ahead (isWord text) then
    word text
    return true
  return false

/-- Any identifier, reserved words included. -/
def anyName : Reader String := do
  match ← anyToken with
  | .ident _ name _ => return name
  | _ => failure

/-- An identifier, if the tokens ahead pass a test. -/
def nameIf (test : List Token → Bool) : Reader String := do
  require (← ahead test)
  anyName

/-- An identifier that is no reserved word. -/
def name : Reader String := nameIf isName

def lifetime : Reader Unit := do
  require (← ahead isLifetime)
  let _ ← anyToken
  let _ ← anyToken

def lifetime? : Reader Bool := do
  if ← ahead isLifetime then
    lifetime
    return true
  return false

/-- A literal; a minus sign and the number behind it become one token. -/
def literal : Reader Unit := do
  let s ← get
  match s.rest with
  | .punct '-' _ e :: .literal spelling f :: rest =>
    require (isNumber (.literal spelling f :: rest))
    set { s with rest, written := s.written.push (.literal ("-" ++ spelling) ⟨e.start, f.stop⟩) }
  | _ =>
    require (isLiteral s.rest)
    let _ ← anyToken

/-- The rest of the tokens as they stand. -/
def remaining : Reader (List Token) := do
  let s ← get
  set { s with rest := [], written := s.written ++ s.rest }
  return s.rest

/-- Reads the whole content of a group. -/
def inGroup (delimiter : Delimiter) (content : Reader α) : Reader α := do
  let s ← get
  match s.rest with
  | .group d inner e :: rest =>
    require (d = delimiter)
    match content ⟨inner, #[], s.found⟩ with
    | some (a, inside) =>
      require inside.rest.isEmpty
      set ({ rest, written := s.written.push (.group d inside.written.toList e),
             found := inside.found } : ReaderState)
      return a
    | none => failure
  | _ => failure

def parenthesized (content : Reader α) : Reader α := inGroup .parenthesis content

def bracketed (content : Reader α) : Reader α := inGroup .bracket content

def braced (content : Reader α) : Reader α := inGroup .brace content

/-- A group of any delimiter, kept as it stands. -/
def anyGroup : Reader (Delimiter × List Token) := do
  match ← anyToken with
  | .group d content _ => return (d, content)
  | _ => failure

/-- Declarations found by a reader, taken out of the common list. -/
def collecting (p : Reader α) : Reader (α × List Declaration) := do
  let before := (← get).found
  modify fun s => { s with found := #[] }
  let a ← p
  let inside := (← get).found
  modify fun s => { s with found := before }
  return (a, inside.toList)

/-- Tokens written by a reader, taken out of the common list. -/
def capturing (p : Reader α) : Reader (α × List Token) := do
  let before := (← get).written
  modify fun s => { s with written := #[] }
  let a ← p
  let inside := (← get).written
  modify fun s => { s with written := before }
  return (a, inside.toList)

/-- The stretch of text a reader covers. -/
def spanning (p : Reader α) : Reader (α × Extent) := do
  let (a, ts) ← capturing p
  write ts
  return (a, Token.span ts)

/-- Reads without effect on what is written and found; what was read is kept as it stands. -/
def verbatim (p : Reader α) : Reader α := do
  let before ← get
  let a ← p
  let after ← get
  let source := before.rest.take (before.rest.length - after.rest.length)
  set { before with rest := after.rest, written := before.written ++ source }
  return a

/-- Runs a reader and puts everything back. -/
def trial (p : Reader α) : Reader (Option α) := do
  let s ← get
  match p s with
  | some (a, _) => return some a
  | none => return none

/-- Reads what it can, or nothing. -/
def attempt (p : Reader α) : Reader (Option α) := do
  let s ← get
  match p s with
  | some (a, next) =>
    set next
    return some a
  | none => return none

/-! ### Repetition -/

variable {σ : Type}

/-- Repeats a step while it asks for more, at most `fuel` times. -/
def iterateUpTo : Nat → (σ → Reader (Bool × σ)) → σ → Reader σ
  | 0, _, _ => failure
  | fuel + 1, step, s => do
    let (more, s) ← step s
    if more then iterateUpTo fuel step s else return s

/-- Repeats a step while it asks for more. Every step that does reads a token, so there are no more
steps than tokens. -/
def iterate (step : σ → Reader (Bool × σ)) (s : σ) : Reader σ := do
  iterateUpTo ((← get).rest.length + 1) step s

/-- Repeats a step while it answers true. -/
def repeating (step : Reader Bool) : Reader Unit :=
  iterate (fun _ => return (← step, ())) ()

/-- Repeats a reader until the tokens end. -/
def untilEnd (p : Reader Unit) : Reader Unit :=
  repeating do
    if ← atEnd then return false
    p
    return true

/-- Elements up to the end of the tokens with separators between them; one may end them. -/
def separated (separator : String) (p : Reader Unit) : Reader Unit :=
  repeating do
    if ← atEnd then return false
    p
    if ← atEnd then return false
    mark separator
    return true

end Reader
end GeneratorHost
