import GeneratorHost.Grammar.Category

/-! Paths with and without generic arguments, and attributes. -/
namespace GeneratorHost.Grammar

open Reader

/-- Names and the words that stand for modules and types. -/
def isPathWord (ts : List Token) : Bool :=
  isName ts || isWord "super" ts || isWord "self" ts || isWord "Self" ts || isWord "crate" ts

def pathWord : Reader String := do
  require (← ahead isPathWord)
  anyName

/-- A path without generic arguments. -/
def modPath : Reader Path := do
  let isGlobal ← mark? "::"
  let first ← pathWord
  let segments ← iterate (fun segments => do
    if ← mark? "::" then return (true, (← pathWord) :: segments) else return (false, segments)) [first]
  return ⟨isGlobal, segments.reverse⟩

/-- A written element of a bracketed list and the separator behind it. -/
structure ListElement where
  isLifetime : Bool
  tokens : List Token
  separator : List Token

/-- Lifetimes are written before everything else, with a comma between the two if none is there. -/
def lifetimesFirst (elements : List ListElement) : List Token :=
  let (lifetimes, others) := elements.partition (·.isLifetime)
  let all (es : List ListElement) := es.flatMap fun e => e.tokens ++ e.separator
  let ended := match lifetimes.getLast? with
    | some e => !e.separator.isEmpty
    | none => true
  let rec joinOthers (ended : Bool) : List ListElement → List Token
    | [] => []
    | e :: es => (if ended then [] else Token.mark [',']) ++ e.tokens ++ e.separator ++
        joinOthers (!e.separator.isEmpty) es
  all lifetimes ++ joinOthers ended others

/-- Elements up to a closing angle bracket, written lifetimes first; an element answers whether it
is a lifetime. -/
def angleList (element : Reader Bool) : Reader Unit := do
  let elements ← iterate (fun elements => do
    if ← ahead (isMark ">") then return (false, elements)
    let (isLifetime, tokens) ← capturing element
    if ← ahead (isMark ">") then return (false, ⟨isLifetime, tokens, []⟩ :: elements)
    let (_, separator) ← capturing (mark ",")
    return (true, ⟨isLifetime, tokens, separator⟩ :: elements)) []
  write (lifetimesFirst elements.reverse)

variable (g : Grammar)

/-- The value of an attribute: a lone literal or any expression that begins with no attribute. -/
def attributeValue : Reader Unit := do
  let alone ← attempt do
    literal
    require (← atEnd)
  if alone.isNone then
    require !((← ahead (isMark "#")) && (← ahead2 (isGroup .bracket)))
    let _ ← g (.expression true)

/-- An attribute; an inner one documents what encloses it. -/
def readAttribute (inner : Bool) : Reader Attribute := do
  mark "#"
  if inner then mark "!"
  bracketed do
    let (path, spelling) ← capturing (do
      if ← word? "unsafe" then return ⟨false, ["unsafe"]⟩ else modPath)
    write spelling
    if ← ahead (fun ts => isGroup .parenthesis ts || isGroup .bracket ts || isGroup .brace ts) then
      let (_, content) ← anyGroup
      return ⟨path, Token.textAll spelling, Token.textAll content⟩
    if ← mark? "=" then
      let (_, value) ← capturing (attributeValue g)
      write value
      return ⟨path, Token.textAll spelling, Token.textAll value⟩
    return ⟨path, Token.textAll spelling, ""⟩

def outerAttributes : Reader (List Attribute) := do
  let attributes ← iterate (fun attributes => do
    if ← ahead (isMark "#") then return (true, (← readAttribute g false) :: attributes)
    return (false, attributes)) []
  return attributes.reverse

def innerAttributes : Reader (List Attribute) := do
  let attributes ← iterate (fun attributes => do
    if (← ahead (isMark "#")) && (← ahead2 (isMark "!")) then
      return (true, (← readAttribute g true) :: attributes)
    return (false, attributes)) []
  return attributes.reverse

/-- Statements of a block with the attributes at its front. -/
def blockBody : Reader (List Attribute) := do
  let attributes ← innerAttributes g
  g .statements
  return attributes

/-- A block of statements without attributes of its own. -/
def block : Reader Unit := braced (g .statements)

/-- A block that may begin with attributes. -/
def attributedBlock : Reader Unit := do
  let _ ← braced (blockBody g)

/-- The constant of a generic argument: a literal, a name or a block. -/
def constArgument : Reader Unit := do
  if ← ahead isLiteral then literal
  else if ← ahead isName then
    let _ ← name
  else
    require (← ahead (isGroup .brace))
    attributedBlock g

/-- Bounds with plus signs between them, up to the tokens that end them. -/
def boundsUntil (ends : List Token → Bool) : Reader (List Path) := do
  let paths ← iterate (fun paths => do
    if ← ahead ends then return (false, paths)
    let paths := match ← g (.bound false true) with
      | .trait path => path :: paths
      | _ => paths
    return (← mark? "+", paths)) []
  return paths.reverse

/-- A generic argument; the answer is whether it is a lifetime. -/
def genericArgument : Reader Bool := do
  if (← ahead isLifetime) && !(← ahead2 (isMark "+")) then
    lifetime
    return true
  if ← ahead (fun ts => isLiteral ts || isGroup .brace ts) then
    constArgument g
    return false
  match ← g (.type true) with
  | .path false ⟨⟨false, [_]⟩, _, _, false⟩ =>
    if ← mark? "=" then
      if ← ahead (fun ts => isLiteral ts || isGroup .brace ts) then constArgument g
      else
        let _ ← g (.type true)
    else if ← mark? ":" then
      let _ ← boundsUntil g fun ts => isMark "," ts || isMark ">" ts
  | _ => pure ()
  return false

/-- Generic arguments between angle brackets, with or without the double colon before them. -/
def angleArguments : Reader Unit := do
  let _ ← mark? "::"
  mark "<"
  angleList (genericArgument g)
  mark ">"

/-- A path segment; in an expression its arguments need a double colon. The answer tells whether it
has arguments. -/
def pathSegment (expression : Bool) : Reader (String × Bool) := do
  if ← ahead (fun ts => isWord "super" ts || isWord "self" ts || isWord "crate" ts || isWord "try" ts) then
    return (← anyName, false)
  let segment ← if ← ahead (isWord "Self") then anyName else name
  let angle ← ahead fun ts => !expression && isMark "<" ts && !isMark "<=" ts && !isMark "<<=" ts
  if angle || ((← ahead (isMark "::")) && (← ahead3 (isMark "<"))) then
    angleArguments g
    return (segment, true)
  return (segment, false)

/-- Further segments of a path, as long as a double colon leads to one. -/
def moreSegments (expression : Bool) (continues : Reader Bool) (shape : PathShape) : Reader PathShape :=
  iterate (fun shape => do
    if ← continues then
      mark "::"
      let (segment, hasArguments) ← pathSegment g expression
      return (true, ⟨⟨shape.path.isGlobal, shape.path.segments ++ [segment]⟩,
        shape.plain && !hasArguments, !hasArguments, false⟩)
    return (false, shape)) shape

/-- A path with generic arguments. -/
def path (expression : Bool) : Reader PathShape := do
  let isGlobal ← mark? "::"
  let (segment, hasArguments) ← pathSegment g expression
  moreSegments g expression
    (return (← ahead (isMark "::")) && !(← ahead3 (isGroup .parenthesis)))
    ⟨⟨isGlobal, [segment]⟩, !hasArguments, !hasArguments, false⟩

/-- A path that may begin with a type in angle brackets; the first answer tells whether it does. -/
def qualifiedPath (expression : Bool) : Reader (Bool × PathShape) := do
  if ← ahead (isMark "<") then
    mark "<"
    let _ ← g (.type true)
    if ← word? "as" then
      let _ ← path g false
    mark ">"
    mark "::"
    let (segment, hasArguments) ← pathSegment g expression
    let shape ← moreSegments g expression (ahead (isMark "::"))
      ⟨⟨false, [segment]⟩, !hasArguments, !hasArguments, false⟩
    return (true, shape)
  return (false, ← path g expression)

/-- A macro call from behind its path: the answer is the delimiter of its arguments. -/
def macroArguments : Reader Delimiter := do
  mark "!"
  return (← anyGroup).1

/-- A macro call on a plain path. -/
def macroCall : Reader Delimiter := do
  let _ ← modPath
  macroArguments

end GeneratorHost.Grammar
