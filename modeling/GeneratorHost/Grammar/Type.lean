import GeneratorHost.Grammar.Generics

/-! Types and trait bounds. -/
namespace GeneratorHost.Grammar

open Reader

variable (g : Grammar)

/-- The type a function returns, if an arrow follows. -/
def returnType (plus : Bool) : Reader Unit := do
  if ← mark? "->" then
    let _ ← g (.type plus)

/-- Adds parenthesized arguments and a result to a path; a double colon before them is dropped. -/
def applied (shape : PathShape) : Reader PathShape := do
  let colons := (← ahead (isMark "::")) && (← ahead3 (isGroup .parenthesis))
  if shape.bare && ((← ahead (isGroup .parenthesis)) || colons) then
    let _ ← capturing (mark? "::")
    parenthesized (separated "," do
      let _ ← g (.type true))
    returnType g false
    return { shape with plain := false, bare := false, applied := true }
  return shape

/-- A trait with its lifetimes or the mark of a relaxed bound; nothing for one that is `const`. -/
def traitBound (const : Bool) : Reader (Option Path) := do
  let lifetimes ← ahead (isWord "for")
  if lifetimes then boundLifetimes g
  let isConst ←
    if ← ahead (isGroup .bracket) then
      bracketed (word "const")
      pure true
    else word? "const"
  require (const || !isConst)
  let relaxed ← mark? "?"
  require (!(relaxed && lifetimes))
  let shape ← applied g (← path g false)
  return if isConst then none else some shape.path

/-- The arguments that an opaque type captures. -/
def capturedArguments : Reader Unit := do
  word "use"
  mark "<"
  repeating do
    if ← ahead isLifetime then lifetime
    else if ← ahead (fun ts => isName ts || isWord "Self" ts) then
      let _ ← anyName
    else
      require (← ahead (isMark ">"))
      return false
    if ← mark? "," then return true
    require (← ahead (isMark ">"))
    return false
  mark ">"

def bound (capture const : Bool) : Reader BoundShape := do
  if ← lifetime? then return .lifetime
  if ← ahead (isWord "use") then
    require capture
    capturedArguments
    return .capture
  let start ← get
  let inner := if isGroup .parenthesis start.rest then parenthesized (traitBound g const)
    else traitBound g const
  match ← inner with
  | some path => return .trait path
  | none =>
    set start
    let _ ← verbatim inner
    return .verbatim

/-- Bounds with plus signs between them, and whether a plus sign ends them. -/
def boundList (plus capture const : Bool) : Reader (List BoundShape × Bool) := do
  let (bounds, trailing) ← iterate (fun (bounds, _) => do
    let bounds := (← g (.bound capture const)) :: bounds
    if !plus then return (false, bounds, false)
    if !(← mark? "+") then return (false, bounds, false)
    let more ← ahead fun ts => isAnyName ts || isMark "::" ts || isMark "?" ts || isLifetime ts ||
      isGroup .parenthesis ts || (const && isGroup .bracket ts)
    return (more, bounds, true)) ([], false)
  return (bounds.reverse, trailing)

/-- Whether bounds name something besides lifetimes. -/
def namesTrait (bounds : List BoundShape) : Bool :=
  bounds.any fun
    | .trait _ | .verbatim => true
    | _ => false

/-- Bounds behind the first of a type without `dyn`; their number. -/
def furtherBounds : Reader Nat :=
  iterate (fun count => do
    if ← mark? "+" then
      let _ ← g (.bound false false)
      return (true, count + 1)
    return (false, count)) 0

/-- A type object without `dyn` that begins with a lifetime. -/
def objectType (plus : Bool) : Reader TypeShape := do
  let dyn ← word? "dyn"
  let (bounds, trailing) ← boundList g plus false false
  require (namesTrait bounds)
  return if dyn then .other else .bounds bounds.length trailing

/-- The calling convention of a function. -/
def convention : Reader Unit := do
  word "extern"
  if ← ahead isTextLiteral then
    let _ ← anyToken

def convention? : Reader Unit := do
  if ← ahead (isWord "extern") then convention

/-- The dots of a variadic function pointer with their name. -/
def pointerDots : Reader Unit := do
  if ← ahead (fun ts => isName ts || isWord "_" ts) then
    let _ ← anyName
    mark ":"
  mark "..."
  let _ ← mark? ","

/-- A parameter of a function pointer; the first may be a `self` that is kept as it stands. -/
def pointerParameter (first : Bool) : Reader Unit := do
  let _ ← outerAttributes g
  let mutSelf := first && (← ahead (isWord "mut")) && (← ahead2 (isWord "self"))
  let bare := mutSelf && !(← ahead3 fun ts => isMark ":" ts && !isMark "::" ts)
  if mutSelf then
    verbatim do
      word "mut"
      word "self"
      if !bare then
        mark ":"
        let _ ← g (.type true)
  else
    let named := (← ahead fun ts => isName ts || isWord "_" ts || (first && isWord "self" ts)) &&
      (← ahead2 fun ts => isMark ":" ts && !isMark "::" ts)
    if named then
      let _ ← anyName
      mark ":"
    let _ ← g (.type true)

def functionPointer : Reader Unit := do
  let _ ← word? "unsafe"
  convention?
  word "fn"
  parenthesized do
    let _ ← iterate (fun first => do
      if ← atEnd then return (false, first)
      let _ ← outerAttributes g
      let named := (← ahead fun ts => isName ts || isWord "_" ts) && (← ahead2 (isMark ":")) &&
        (← ahead3 (isMark "..."))
      if named || (← ahead (isMark "...")) then
        pointerDots
        return (false, first)
      pointerParameter g first
      if ← atEnd then return (false, first)
      mark ","
      return (true, false)) true
  returnType g false

/-- What parentheses around a type hold. -/
inductive ParenthesizedType where
  | complete (shape : TypeShape)
  | maybeBound
  | single (shape : TypeShape)

def parenthesizedType : Reader ParenthesizedType :=
  parenthesized do
    if ← atEnd then return .complete .other
    if ← ahead isLifetime then
      let _ ← objectType g true
      return .complete (.parenthesized none)
    if ← ahead (isMark "?") then
      let _ ← traitBound g false
      return .maybeBound
    let shape ← g (.type true)
    if ← mark? "," then
      separated "," do
        let _ ← g (.type true)
      return .complete .other
    return .single shape

/-- Whether a type in parentheses can be the first of several bounds. -/
def leadsBounds : TypeShape → Bool
  | .path false _ => true
  | .bounds count trailing => count ≤ 1 && !trailing
  | _ => false

/-- A type that begins with a path: the path itself, a macro call, or bounds. -/
def pathType (plus lifetimes : Bool) : Reader TypeShape := do
  let (qualified, shape) ← qualifiedPath g false
  let shape ← applied g shape
  if qualified then return .path true shape
  if shape.plain && (← ahead fun ts => isMark "!" ts && !isMark "!=" ts) then
    let _ ← macroArguments
    return .other
  if !lifetimes && !(plus && (← ahead (isMark "+"))) then return .path false shape
  let (count, trailing) ← iterate (fun (count, trailing) => do
    if !(plus && (← mark? "+")) then return (false, count, trailing)
    let more ← ahead fun ts => isAnyName ts || isMark "::" ts || isMark "?" ts || isLifetime ts ||
      isGroup .parenthesis ts
    if !more then return (false, count, true)
    let _ ← g (.bound false false)
    return (true, count + 1, false)) (1, false)
  return .bounds count trailing

/-- Words and marks that begin a path. -/
def startsPath (ts : List Token) : Bool :=
  isName ts || isWord "super" ts || isWord "self" ts || isWord "Self" ts || isWord "crate" ts ||
    isMark "::" ts || isMark "<" ts

def startsPointer (ts : List Token) : Bool :=
  isWord "fn" ts || isWord "unsafe" ts || isWord "extern" ts

/-- A `dyn` type; one with a star behind the word is kept as it stands. -/
def dynType (plus : Bool) : Reader TypeShape := do
  let star ← ahead2 (isMark "*")
  let read : Reader Unit := do
    word "dyn"
    let _ ← mark? "*"
    let (bounds, _) ← boundList g plus false false
    require (namesTrait bounds)
  if star then verbatim read else read
  return .other

def type (plus : Bool) : Reader TypeShape := do
  let lifetimes ← ahead (isWord "for")
  if lifetimes then
    boundLifetimes g
    require (← ahead fun ts => startsPointer ts || (startsPath ts && !isMark "::" ts && !isMark "<" ts))
  if ← ahead (isGroup .parenthesis) then
    match ← parenthesizedType g with
    | .complete shape => return shape
    | .maybeBound => return .bounds (1 + (← furtherBounds g)) false
    | .single shape =>
      if plus && (← ahead (isMark "+")) && leadsBounds shape then
        return .bounds (1 + (← furtherBounds g)) false
      return .parenthesized shape.path?
  if ← ahead startsPointer then
    functionPointer g
    return .other
  if ← ahead startsPath then return (← pathType g plus lifetimes)
  if ← ahead (isWord "dyn") then return (← dynType g plus)
  if ← ahead (isGroup .bracket) then
    bracketed do
      let _ ← g (.type true)
      if ← mark? ";" then
        let _ ← g (.expression true)
    return .other
  if ← mark? "*" then
    if !(← word? "const") then word "mut"
    let _ ← g (.type false)
    return .other
  if ← mark? "&" then
    let _ ← lifetime?
    let _ ← word? "mut"
    let _ ← g (.type false)
    return .other
  if ← mark? "!" then return .other
  if ← word? "impl" then
    let (bounds, _) ← boundList g plus true true
    require (namesTrait bounds)
    return .other
  if ← word? "_" then return .other
  require (← ahead isLifetime)
  objectType g true

end GeneratorHost.Grammar
