import GeneratorHost.Grammar.Pattern
import GeneratorHost.Text.Split

/-! Expressions. -/
namespace GeneratorHost.Grammar

open Reader

variable (g : Grammar)

/-! ### Operators -/

/-- Binary operators with their binding strength, longer marks before those they begin with. -/
def binaryOperators : List (String × Precedence) :=
  [("+=", .assign), ("-=", .assign), ("*=", .assign), ("/=", .assign), ("%=", .assign),
    ("^=", .assign), ("&=", .assign), ("|=", .assign), ("<<=", .assign), (">>=", .assign),
    ("&&", .and), ("||", .or), ("<<", .shift), (">>", .shift), ("==", .compare), ("<=", .compare),
    ("!=", .compare), (">=", .compare), ("+", .sum), ("-", .sum), ("*", .product), ("/", .product),
    ("%", .product), ("^", .bitXor), ("&", .bitAnd), ("|", .bitOr), ("<", .compare), (">", .compare)]

def binaryOperator? (ts : List Token) : Option (String × Precedence) :=
  binaryOperators.find? fun (text, _) => isMark text ts

def isAssignment (ts : List Token) : Bool := isMark "=" ts && !isMark "=>" ts

/-- How strongly the operator at the front binds. -/
def operatorPrecedence (ts : List Token) : Precedence :=
  match binaryOperator? ts with
  | some (_, precedence) => precedence
  | none =>
    if isAssignment ts then .assign
    else if isMark ".." ts then .range
    else if isWord "as" ts then .cast
    else .jump

/-- The right operand of an operator, with the stronger operators behind it. -/
def rightOperand (structs : Bool) (precedence : Precedence) : Reader ExpressionShape := do
  let first ← g (.unary structs)
  iterate (fun shape => do
    let before := (← get).rest
    let next := operatorPrecedence before
    if next.rank > precedence.rank || (next = precedence && precedence = .assign) then
      let shape ← g (.operators structs shape next)
      return ((← get).rest.length ≠ before.length, shape)
    return (false, shape)) first

/-- Tokens behind two dots that begin no upper bound. -/
def endsRange (structs : Bool) (ts : List Token) : Bool :=
  ts.isEmpty || isMark "," ts || isMark ";" ts || (isMark "." ts && !isMark ".." ts) ||
    isMark "?" ts || isMark "=>" ts || (!structs && isGroup .brace ts) || isMark "=" ts ||
    isMark "+" ts || isMark "/" ts || isMark "%" ts || isMark "^" ts || isMark ">" ts ||
    isMark "<=" ts || isMark "!=" ts || isMark "-=" ts || isMark "*=" ts || isMark "&=" ts ||
    isMark "|=" ts || isMark "<<=" ts || isWord "as" ts

/-- The dots and the upper bound of a range. -/
def rangeTail (structs : Bool) : Reader ExpressionShape := do
  let inclusive ← mark? "..="
  if !inclusive then
    require !(← ahead (isMark "..."))
    mark ".."
  if inclusive || !(← ahead (endsRange structs)) then
    let _ ← rightOperand g structs .range
  return .range

/-- Tokens that may not follow a cast, because they would bind to the type. -/
def bindsToType (ts : List Token) : Bool :=
  (isMark "." ts && !isMark ".." ts) || isMark "?" ts || isGroup .bracket ts || isGroup .parenthesis ts

/-- The operators behind an operand that bind at least as strongly as the base. -/
def operators (structs : Bool) (left : ExpressionShape) (base : Precedence) : Reader ExpressionShape :=
  iterate (fun shape => do
    if shape = .range then return (false, shape)
    match binaryOperator? (← get).rest with
    | some (text, precedence) =>
      if precedence.rank < base.rank then return (false, shape)
      require !(precedence = .compare && shape = .comparison)
      mark text
      let _ ← rightOperand g structs precedence
      return (true, if precedence = .compare then .comparison else .other)
    | none =>
      if base.rank ≤ Precedence.assign.rank && (← ahead isAssignment) then
        mark "="
        let _ ← rightOperand g structs .assign
        return (true, .other)
      if base.rank ≤ Precedence.range.rank && (← ahead (isMark "..")) then
        return (true, ← rangeTail g structs)
      if ← ahead (isWord "as") then
        word "as"
        let _ ← g (.type false)
        require !(← ahead bindsToType)
        return (true, .other)
      return (false, shape)) left

/-! ### Operands -/

/-- Arguments of a call. -/
def arguments : Reader Unit :=
  parenthesized <| separated "," do
    let _ ← g (.expression true)

/-- The positions in a number such as `0.1` behind a point, and whether it ends in another point. -/
def fieldPositions (spelling : String) : Option (List Nat × Bool) := do
  let parts := Text.splitChar '.' spelling.toList
  let (parts, trailing) := if parts.getLast? = some [] then (parts.dropLast, true) else (parts, false)
  let positions ← parts.mapM fun part =>
    match Token.wholeValue? part with
    | some (value, []) => if value < Token.indexLimit then some value else none
    | _ => none
  return (positions, trailing)

/-- Reads a number behind a point as nested tuple fields; the answer tells whether the point of a
further member was read with it. -/
def nestedFields : Reader Bool := do
  let (token, _) ← capturing anyToken
  match token with
  | .literal spelling e =>
    let some (positions, trailing) := fieldPositions spelling | failure
    let fields := positions.map fun n => [Token.literal (toString n) e]
    write (List.intercalate (Token.mark ['.']) fields ++ if trailing then Token.mark ['.'] else [])
    return trailing
  | _ => failure

/-- A member behind a point: a field, a method call or an await. -/
def memberAccess : Reader Unit := do
  mark "."
  if ← ahead (isNumberOf .fraction) then
    if !(← nestedFields) then return
  if ← word? "await" then return
  let named ← member
  let generic := named && (← ahead (isMark "::"))
  if generic then angleArguments g
  if named && (generic || (← ahead (isGroup .parenthesis))) then arguments g

/-- Calls, members, indices and question marks behind an operand. -/
def trailers (shape : ExpressionShape) : Reader ExpressionShape :=
  iterate (fun shape => do
    if ← ahead (isGroup .parenthesis) then
      arguments g
      return (true, .other)
    if shape ≠ .range && (← ahead fun ts => isMark "." ts && !isMark ".." ts) then
      memberAccess g
      return (true, .other)
    if ← ahead (isGroup .bracket) then
      bracketed do
        let _ ← g (.expression true)
      return (true, .other)
    if shape ≠ .range && (← mark? "?") then return (true, .other)
    return (false, shape)) shape

/-- Tokens that can begin an expression. -/
def startsExpression (ts : List Token) : Bool :=
  isAnyName ts || isGroup .parenthesis ts || isGroup .bracket ts || isGroup .brace ts ||
    isLiteral ts || (isMark "!" ts && !isMark "!=" ts) ||
    (isMark "-" ts && !isMark "-=" ts && !isMark "->" ts) || (isMark "*" ts && !isMark "*=" ts) ||
    (isMark "|" ts && !isMark "|=" ts) || (isMark "&" ts && !isMark "&=" ts) || isMark ".." ts ||
    (isMark "<" ts && !isMark "<=" ts && !isMark "<<=" ts) || isMark "::" ts || isLifetime ts ||
    isMark "#" ts

/-- A field of a struct literal. -/
def fieldValue : Reader Unit := do
  let _ ← outerAttributes g
  let named ← member
  if !named || (← ahead (isMark ":")) then
    mark ":"
    let _ ← g (.expression true)

/-- The fields of a struct literal, two dots and a base at the end. -/
def structFields : Reader Unit :=
  braced <| repeating do
    if ← atEnd then return false
    if ← mark? ".." then
      if !(← atEnd) then
        let _ ← g (.expression true)
      return false
    fieldValue g
    if ← atEnd then return false
    mark ","
    return true

/-- An expression that begins with a path: a name, a macro call or a struct literal. -/
def pathExpression (structs : Bool) : Reader ExpressionShape := do
  let (qualified, shape) ← qualifiedPath g true
  if !qualified && shape.plain && (← ahead fun ts => isMark "!" ts && !isMark "!=" ts) then
    return .call (← macroArguments)
  if structs && (← ahead (isGroup .brace)) then structFields g
  return .other

/-- A parameter of a closure. -/
def closureParameter : Reader Unit := do
  let _ ← outerAttributes g
  let _ ← g .pattern
  if ← mark? ":" then
    let _ ← g (.type true)

def closure (structs : Bool) : Reader Unit := do
  if ← ahead (isWord "for") then boundLifetimes g
  let _ ← word? "const"
  let _ ← word? "static"
  let _ ← word? "async"
  let _ ← word? "move"
  mark "|"
  repeating do
    if ← ahead (isMark "|") then return false
    closureParameter g
    if ← ahead (isMark "|") then return false
    mark ","
    return true
  mark "|"
  if ← mark? "->" then
    let _ ← g (.type true)
    block g
  else
    let _ ← g (.expression structs)

def startsClosure (ts : List Token) : Bool :=
  let second := skip ts
  isMark "|" ts || isWord "move" ts || (isWord "for" ts && startsGenerics second) ||
    (isWord "const" ts && !isGroup .brace second) || isWord "static" ts ||
    (isWord "async" ts && (isMark "|" second || isWord "move" second))

/-- An `if` with its `else` branches. -/
def conditional : Reader Unit :=
  repeating do
    word "if"
    let _ ← g (.expression false)
    block g
    if !(← word? "else") then return false
    if ← ahead (isWord "if") then return true
    block g
    return false

def whileLoop : Reader Unit := do
  word "while"
  let _ ← g (.expression false)
  attributedBlock g

def forLoop : Reader Unit := do
  word "for"
  let _ ← patterns g
  word "in"
  let _ ← g (.expression false)
  attributedBlock g

def loop : Reader Unit := do
  word "loop"
  attributedBlock g

/-- A block behind the word that qualifies it. -/
def wordBlock (text : String) : Reader Unit := do
  word text
  attributedBlock g

def tryBlock : Reader Unit := do
  word "try"
  block g

def asyncBlock : Reader Unit := do
  word "async"
  let _ ← word? "move"
  block g

/-- A loop or block behind a label. -/
def labeled : Reader Unit := do
  lifetime
  mark ":"
  if ← ahead (isWord "while") then whileLoop g
  else if ← ahead (isWord "for") then forLoop g
  else if ← ahead (isWord "loop") then loop g
  else attributedBlock g

/-- A `for` loop rather than a closure over lifetimes. -/
def startsFor (ts : List Token) : Bool := isWord "for" ts && !startsGenerics (skip ts)

/-- A `match` with its arms; arms that are not control flow have commas between them. -/
def matchArms : Reader Unit := do
  word "match"
  let _ ← g (.expression false)
  braced do
    let _ ← innerAttributes g
    untilEnd do
      let _ ← outerAttributes g
      let _ ← patterns g
      if ← word? "if" then
        let _ ← g (.expression true)
      mark "=>"
      let shape ← g .early
      if shape ≠ .block && !(← atEnd) then mark ","
      else
        let _ ← mark? ","

/-- Control flow or a block, if one begins here. -/
def controlFlow : Reader Bool := do
  let ts := (← get).rest
  let second := skip ts
  if isWord "if" ts then conditional g
  else if isWord "while" ts then whileLoop g
  else if startsFor ts then forLoop g
  else if isWord "loop" ts then loop g
  else if isWord "match" ts then matchArms g
  else if isWord "try" ts && isGroup .brace second then tryBlock g
  else if isWord "unsafe" ts then wordBlock g "unsafe"
  else if isWord "const" ts && isGroup .brace second then wordBlock g "const"
  else if isGroup .brace ts then attributedBlock g
  else if isLifetime ts then labeled g
  else return false
  return true

/-- A `break` with its label and value. -/
def breakOut (structs : Bool) : Reader Unit := do
  word "break"
  if ← lifetime? then require !(← ahead (isMark ":"))
  if ← ahead (fun ts => startsExpression ts && (structs || !isGroup .brace ts)) then
    let _ ← g (.expression structs)

/-- A word and the value behind it, if there is one. -/
def wordValue (text : String) : Reader Unit := do
  word text
  if ← ahead startsExpression then
    let _ ← g (.expression true)

/-- Elements between brackets: a list, or one element repeated. -/
def arrayElements : Reader Unit :=
  bracketed do
    if ← atEnd then return
    let _ ← g (.expression true)
    if ← mark? ";" then
      let _ ← g (.expression true)
    else if !(← atEnd) then
      mark ","
      separated "," do
        let _ ← g (.expression true)

/-- An operand without prefix operators and trailers. -/
def atom (structs : Bool) : Reader ExpressionShape := do
  let ts := (← get).rest
  let second := skip ts
  let third := skip second
  if isLiteral ts then
    literal
    return .other
  if isWord "async" ts && (isGroup .brace second || (isWord "move" second && isGroup .brace third)) then
    asyncBlock g
    return .other
  if isWord "try" ts && isGroup .brace second then
    tryBlock g
    return .block
  if startsClosure ts then
    closure g structs
    return .other
  if isWord "builtin" ts && isMark "#" second then
    verbatim do
      word "builtin"
      mark "#"
      let _ ← name
      parenthesized do
        let _ ← remaining
    return .other
  if startsPath ts || (isWord "try" ts && (isMark "!" second || isMark "::" second)) then
    return (← pathExpression g structs)
  if isGroup .parenthesis ts then
    arguments g
    return .other
  if isWord "break" ts then
    breakOut g structs
    return .other
  if isWord "continue" ts then
    word "continue"
    let _ ← lifetime?
    return .other
  if isWord "return" ts then
    wordValue g "return"
    return .other
  if isWord "become" ts then
    verbatim do
      word "become"
      let _ ← g (.expression true)
    return .other
  if isGroup .bracket ts then
    arrayElements g
    return .other
  if isWord "let" ts then
    word "let"
    let _ ← patterns g
    mark "="
    let left ← g (.unary structs)
    let _ ← g (.operators structs left .compare)
    return .other
  if isWord "yield" ts then
    wordValue g "yield"
    return .other
  if isMark ".." ts then return (← rangeTail g structs)
  if ← word? "_" then return .other
  require (← controlFlow g)
  return .block

def unary (structs : Bool) : Reader ExpressionShape := do
  let attributes ← outerAttributes g
  if ← mark? "&" then
    let raw := (← ahead (isWord "raw")) && (← ahead2 fun ts => isWord "mut" ts || isWord "const" ts)
    if raw then word "raw"
    if !(← word? "mut") && raw then word "const"
    let _ ← g (.unary structs)
    return .other
  if ← ahead (fun ts => isMark "*" ts || isMark "!" ts || isMark "-" ts) then
    let _ ← anyMark
    let _ ← g (.unary structs)
    return .other
  let shape ← trailers g (← atom g structs)
  require (attributes.isEmpty || shape ≠ .range)
  return shape

def expression (structs : Bool) : Reader ExpressionShape := do
  let left ← g (.unary structs)
  g (.operators structs left .jump)

/-- An expression at the start of a statement or arm: control flow ends it unless a member or a
question mark follows. -/
def early : Reader ExpressionShape := do
  let _ ← outerAttributes g
  if ← controlFlow g then
    if ← ahead (fun ts => (isMark "." ts && !isMark ".." ts) || isMark "?" ts) then
      let shape ← trailers g .block
      return (← g (.operators true shape .jump))
    return .block
  let left ← g (.unary true)
  g (.operators true left .jump)

end GeneratorHost.Grammar
