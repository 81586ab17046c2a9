import GeneratorHost.Grammar.Type

/-! Patterns. -/
namespace GeneratorHost.Grammar

open Reader

variable (g : Grammar)

/-- A vertical bar between patterns, not part of another operator. -/
def isAlternative (ts : List Token) : Bool :=
  isMark "|" ts && !isMark "||" ts && !isMark "|=" ts

/-- Patterns with vertical bars between them. -/
def patterns : Reader PatternShape := do
  let leading ← mark? "|"
  let first ← g .pattern
  let several ← ahead isAlternative
  repeating do
    if ← ahead isAlternative then
      mark "|"
      let _ ← g .pattern
      return true
    return false
  return if leading || several then .other else first

/-- A name or the position of a tuple field; the answer is whether it is a name. A position is
written as a plain decimal number. -/
def member : Reader Bool := do
  if ← ahead isName then
    let _ ← name
    return true
  match ← anyToken with
  | .literal spelling e =>
    match Token.wholeValue? spelling.toList with
    | some (value, []) =>
      require (value < Token.indexLimit)
      modify fun s => { s with written := s.written.pop.push (.literal (toString value) e) }
      return false
    | _ => failure
  | _ => failure

/-- A bound of a range pattern, if one is written. -/
def rangeBound : Reader Bool := do
  if ← ahead (fun ts => ts.isEmpty || isMark "|" ts || isMark "=" ts ||
      (isMark ":" ts && !isMark "::" ts) || isMark "," ts || isMark ";" ts || isWord "if" ts) then
    return false
  if ← ahead isLiteral then literal
  else if ← ahead startsPath then
    let _ ← qualifiedPath g true
  else
    word "const"
    attributedBlock g
  return true

/-- The dots of a range pattern; three dots are written as an inclusive range. The answer is whether
the range is inclusive. -/
def rangeDots : Reader Bool := do
  if ← mark? "..=" then return true
  if ← ahead (isMark "...") then
    let (_, dots) ← capturing (mark "...")
    write (dots.zipWith (fun t c => .punct c (c ≠ '=') t.extent) ['.', '.', '='])
    return true
  mark ".."
  return false

/-- The dots and the upper bound of a range pattern. -/
def rangeEnd : Reader PatternShape := do
  let inclusive ← rangeDots
  let bounded ← rangeBound g
  require (bounded || !inclusive)
  return if bounded then .other else .openRange

/-- A pattern that begins with dots: the rest of a sequence or a range without lower bound. -/
def dotsPattern : Reader PatternShape := do
  let inclusive ← mark? "..="
  if !inclusive then mark ".."
  let bounded ← rangeBound g
  require (bounded || !inclusive)
  return if bounded then .openRange else .rest

/-- A field of a struct pattern. -/
def fieldPattern : Reader Unit := do
  let start ← get
  let boxed ← word? "box"
  let byRef ← word? "ref"
  let mutable ← word? "mut"
  if boxed || byRef || mutable then
    let _ ← name
    if boxed then
      let stop ← get
      let source := start.rest.take (start.rest.length - stop.rest.length)
      set { stop with written := start.written ++ source }
  else
    let named ← member
    if !named || (← ahead (isMark ":")) then
      mark ":"
      let _ ← patterns g

def structPattern : Reader Unit :=
  braced <| repeating do
    if ← atEnd then return false
    let _ ← outerAttributes g
    if ← mark? ".." then return false
    fieldPattern g
    if ← atEnd then return false
    mark ","
    return true

/-- A pattern that begins with a path: a constant, a macro call, a struct, a tuple or a range. -/
def pathPattern : Reader PatternShape := do
  let (qualified, shape) ← qualifiedPath g true
  if !qualified && shape.plain && (← ahead fun ts => isMark "!" ts && !isMark "!=" ts) then
    let _ ← macroArguments
    return .other
  if ← ahead (isGroup .brace) then
    structPattern g
    return .other
  if ← ahead (isGroup .parenthesis) then
    parenthesized (separated "," do
      let _ ← patterns g)
    return .other
  if ← ahead (isMark "..") then rangeEnd g else return .other

/-- A name that the pattern binds, with the pattern behind an at sign. -/
def bindingPattern : Reader Unit := do
  let _ ← word? "ref"
  let _ ← word? "mut"
  if ← ahead (isWord "self") then
    let _ ← anyName
  else
    let _ ← name
  if ← mark? "@" then
    let _ ← g .pattern

/-- Elements of a slice pattern; a range open at an end needs parentheses. -/
def slicePattern : Reader Unit :=
  bracketed <| separated "," do
    require ((← patterns g) ≠ .openRange)

def pattern : Reader PatternShape := do
  let pathAhead ← ahead fun ts =>
    let second := skip ts
    (isName ts && (isMark "::" second || isMark "!" second || isGroup .brace second ||
      isGroup .parenthesis second || isMark ".." second)) ||
    (isWord "self" ts && isMark "::" second) || isMark "::" ts || isMark "<" ts ||
    isWord "Self" ts || isWord "super" ts || isWord "crate" ts
  if pathAhead then return (← pathPattern g)
  if ← word? "_" then return .other
  if ← ahead (isWord "box") then
    verbatim do
      word "box"
      let _ ← g .pattern
    return .other
  if ← ahead (fun ts => isMark "-" ts || isLiteral ts || isWord "const" ts) then
    require (← rangeBound g)
    if ← ahead (isMark "..") then return (← rangeEnd g) else return .other
  if ← ahead (fun ts => isWord "ref" ts || isWord "mut" ts || isWord "self" ts || isName ts) then
    bindingPattern g
    return .other
  if ← mark? "&" then
    let _ ← word? "mut"
    let _ ← g .pattern
    return .other
  if ← ahead (isGroup .parenthesis) then
    parenthesized (separated "," do
      let _ ← patterns g)
    return .other
  if ← ahead (isGroup .bracket) then
    slicePattern g
    return .other
  require (← ahead fun ts => isMark ".." ts && !isMark "..." ts)
  dotsPattern g

end GeneratorHost.Grammar
