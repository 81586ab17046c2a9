import GeneratorHost.Grammar.Statement

/-! Visibility, function signatures, fields and the frame that every declaration is read in. -/
namespace GeneratorHost.Grammar

open Reader

variable (g : Grammar)

/-- Visibility; the answer is whether any is written. -/
def visibility : Reader Bool := do
  if !(← word? "pub") then return false
  match (← get).rest with
  | .group .parenthesis content _ :: _ =>
    if isWord "crate" content || isWord "self" content || isWord "super" content then
      if content.length = 1 then
        let _ ← anyToken
    else if isWord "in" content then
      parenthesized do
        word "in"
        let _ ← modPath
  | _ => pure ()
  return true

/-- What was read of a declaration behind its outer attributes. -/
structure Parts where
  head : Head
  /-- Attributes at the front of its body. -/
  inner : List Attribute := []
  /-- Declarations in those attributes. -/
  innerFound : List Declaration := []
  header : List Declaration := []
  body : List Declaration := []

/-- Reads a declaration with its attributes and records it; one without parts is kept as it stands. -/
def declaring (rest : Reader (Option Parts)) : Reader Unit := do
  let start ← get
  let (outer, outerFound) ← collecting (outerAttributes g)
  let parts? ← rest
  let stop ← get
  match parts? with
  | some parts =>
    let own := stop.written.extract start.written.size stop.written.size
    set { stop with found := start.found.push {
      head := parts.head
      extent := Token.span own.toList
      attributes := outer ++ parts.inner
      header := outerFound ++ parts.innerFound ++ parts.header
      body := parts.body } }
  | none =>
    let source := start.rest.take (start.rest.length - stop.rest.length)
    set { start with rest := stop.rest, written := start.written ++ source,
                     found := start.found.push ⟨.other, Token.span source, [], [], []⟩ }

/-- What a function's signature tells. -/
structure Signature where
  name : String
  /-- It is marked as safe to call. -/
  safe : Bool
  found : List Declaration

/-- Whether a signature begins here. -/
def startsFunction (safe : Bool) (ts : List Token) : Bool :=
  let drop (word : String) (ts : List Token) := if isWord word ts then ts.drop 1 else ts
  let ts := drop "async" (drop "const" ts)
  let ts := if safe && isWord "safe" ts then ts.drop 1 else drop "unsafe" ts
  let ts := if isWord "extern" ts then
      if isTextLiteral (ts.drop 1) then ts.drop 2 else ts.drop 1
    else ts
  isWord "fn" ts

/-- A `self` parameter. -/
def receiver : Reader Unit := do
  if ← mark? "&" then
    let _ ← lifetime?
    let _ ← word? "mut"
    word "self"
  else
    let _ ← word? "mut"
    word "self"
    if ← mark? ":" then
      let _ ← g (.type true)

/-- Dots that end the parameters. -/
def finalDots : Reader Unit := do
  mark "..."
  if !(← atEnd) then mark ","

/-- Parameters of a function; only the first may be `self`, and dots end them. -/
def parameters : Reader Unit := do
  let _ ← iterate (fun first => do
    if ← atEnd then return (false, first)
    let _ ← outerAttributes g
    if ← ahead (isMark "...") then
      finalDots
      return (false, first)
    if (← attempt (receiver g)).isSome then require first
    else if (← ahead isName) && (← ahead2 (isMark "<")) then
      write (Token.word "_" :: Token.mark [':'])
      let _ ← g (.type true)
    else
      let _ ← g .pattern
      mark ":"
      if ← ahead (isMark "...") then
        finalDots
        return (false, first)
      let _ ← g (.type true)
    if ← atEnd then return (false, first)
    mark ","
    return (true, false)) true

def signature (safe : Bool) : Reader Signature := do
  let _ ← word? "const"
  let _ ← word? "async"
  let isUnsafe ← word? "unsafe"
  let isSafe := safe && !isUnsafe && (← ahead (isWord "safe"))
  if isSafe then word "safe"
  convention?
  word "fn"
  let name ← name
  let (_, parameterFound) ← collecting (generics g)
  let (_, inputFound) ← collecting (parenthesized (parameters g))
  let (_, outputFound) ← collecting (returnType g true)
  let (_, whereFound) ← collecting (whereClause? g)
  return ⟨name, isSafe, parameterFound ++ whereFound ++ inputFound ++ outputFound⟩

/-- The block of a function: its attributes, the declarations in them and those in its statements. -/
def functionBody : Reader (List Attribute × List Declaration × List Declaration) :=
  braced do
    let (inner, innerFound) ← collecting (innerAttributes g)
    let (_, body) ← collecting (g .statements)
    return (inner, innerFound, body)

/-- Reads a field and records it with what is nested in its attributes and type. Its position is
the number of fields recorded before. -/
def declaringField (name : Nat → Reader String) : Reader Unit := do
  let position := (← get).found.size
  let (((attributes, name), extent), body) ← collecting <| spanning do
    let attributes ← outerAttributes g
    let _ ← visibility
    return (attributes, ← name position)
  declare ⟨.field name, extent, attributes, [], body⟩

/-- A field with a name. A field named by an underscore may have fields of its own, kept as they
stand. -/
def namedField : Reader Unit :=
  declaringField g fun _ => do
    let unnamed ← ahead (isWord "_")
    let field ← if unnamed then anyName else name
    mark ":"
    let nested ← ahead fun ts => isWord "struct" ts || (isWord "union" ts && isGroup .brace (skip ts))
    if unnamed && nested then
      verbatim do
        let _ ← anyName
        g .namedFields
    else
      let _ ← g (.type true)
    return field

def namedFields : Reader Unit := braced (separated "," (namedField g))

/-- A field named by its position. -/
def tupleField : Reader Unit :=
  declaringField g fun position => do
    let _ ← g (.type true)
    return toString position

/-- Fields between parentheses. -/
def tupleFields : Reader Unit := parenthesized (separated "," (tupleField g))

end GeneratorHost.Grammar
