import GeneratorHost.Grammar.Expression

/-! Statements of a block. -/
namespace GeneratorHost.Grammar

open Reader

variable (g : Grammar)

/-- The tokens behind a plain path at the front. -/
def behindPath (ts : List Token) : Option (List Token) :=
  (modPath ⟨ts, #[], #[]⟩).map fun (_, s) => s.rest

/-- A macro definition: a path, an exclamation mark and a name. -/
def startsMacroItem (ts : List Token) : Bool :=
  match behindPath ts with
  | some rest => isMark "!" rest && (isName (skip rest) || isWord "try" (skip rest))
  | none => false

/-- A macro call with braces that no operand goes on from. -/
def startsMacroStatement (ts : List Token) : Bool :=
  match behindPath ts with
  | some rest =>
    let second := skip rest
    let third := skip second
    isMark "!" rest && isGroup .brace second &&
      !((isMark "." third && !isMark ".." third) || isMark "?" third)
  | none => false

/-- Tokens that begin an item rather than an expression. -/
def startsItem (ts : List Token) : Bool :=
  let second := skip ts
  let third := skip second
  isWord "pub" ts || (isWord "crate" ts && !isMark "::" second) || isWord "extern" ts ||
    isWord "use" ts ||
    (isWord "static" ts && (isWord "mut" second ||
      (isName second && !(isWord "async" second && (isWord "move" third || isMark "|" third))))) ||
    (isWord "const" ts && !(isGroup .brace second || isWord "static" second ||
      (isWord "async" second &&
        !(isWord "unsafe" third || isWord "extern" third || isWord "fn" third)) ||
      isWord "move" second || isMark "|" second)) ||
    (isWord "unsafe" ts && !isGroup .brace second) ||
    (isWord "async" ts && (isWord "unsafe" second || isWord "extern" second || isWord "fn" second)) ||
    isWord "fn" ts || isWord "mod" ts || isWord "type" ts || isWord "struct" ts ||
    isWord "enum" ts || (isWord "union" ts && isName second) ||
    (isWord "auto" ts && isWord "trait" second) || isWord "trait" ts ||
    (isWord "default" ts && (isWord "unsafe" second || isWord "impl" second)) ||
    isWord "impl" ts || isWord "macro" ts || startsMacroItem ts

/-- Whether the last token written is a block. -/
def endsWithBrace : Reader Bool :=
  return match (← get).written.back? with
    | some (.group .brace _ _) => true
    | _ => false

/-- A `let` binding; an `else` may not follow a value that ends with a brace. -/
def localBinding : Reader Unit := do
  word "let"
  let _ ← g .pattern
  if ← mark? ":" then
    let _ ← g (.type true)
  if ← mark? "=" then
    let _ ← g (.expression true)
    if !(← endsWithBrace) && (← ahead (isWord "else")) then
      word "else"
      block g
  mark ";"

/-- A statement; the answer is whether it may only stand at the end of a block. -/
def statement : Reader Bool := do
  let start ← get
  let _ ← outerAttributes g
  let ts := (← get).rest
  if startsMacroStatement ts then
    let _ ← macroCall
    let _ ← mark? ";"
    return false
  if isWord "let" ts then
    localBinding g
    return false
  if startsItem ts then
    set start
    g .item
    return false
  let shape ← g .early
  if ← mark? ";" then return false
  return match shape with
    | .block | .call .brace => false
    | _ => true

def statements : Reader Unit :=
  repeating do
    if ← mark? ";" then return true
    if ← atEnd then return false
    let last ← statement g
    if ← atEnd then return false
    require !last
    return true

end GeneratorHost.Grammar
