import GeneratorHost.Grammar.Path

/-! Generic parameters, where clauses and the lifetimes that bounds introduce. -/
namespace GeneratorHost.Grammar

open Reader

variable (g : Grammar)

/-- Lifetimes with plus signs between them, up to the tokens that end them. -/
def lifetimesUntil (ends : List Token → Bool) : Reader Unit :=
  repeating do
    if ← ahead ends then return false
    lifetime
    mark? "+"

def lifetimeParameter : Reader Unit := do
  lifetime
  if ← mark? ":" then
    lifetimesUntil fun ts => ts.isEmpty || isMark "," ts || isMark ">" ts

/-- A type parameter; the answer is its name. -/
def typeParameter : Reader String := do
  let parameter ← name
  if ← mark? ":" then
    let _ ← boundsUntil g fun ts => ts.isEmpty || isMark "," ts || isMark ">" ts || isMark "=" ts
  if ← mark? "=" then
    let _ ← g (.type true)
  return parameter

def constParameter : Reader Unit := do
  word "const"
  let _ ← name
  mark ":"
  let _ ← g (.type true)
  if ← mark? "=" then constArgument g

/-- A generic parameter: whether it is a lifetime, and its name if it is a type. -/
def genericParameter (blank : Bool) : Reader (Bool × Option String) := do
  let _ ← outerAttributes g
  if ← ahead isLifetime then
    lifetimeParameter
    return (true, none)
  if ← ahead isName then return (false, some (← typeParameter g))
  if ← ahead (isWord "const") then
    constParameter g
    return (false, none)
  require (blank && (← ahead (isWord "_")))
  return (false, some (← anyName))

/-- The lifetimes a bound or a function pointer introduces. -/
def boundLifetimes : Reader Unit := do
  word "for"
  mark "<"
  repeating do
    if ← ahead (isMark ">") then return false
    let _ ← genericParameter g false
    if ← ahead (isMark ">") then return false
    mark ","
    return true
  mark ">"

/-- Generic parameters: whether there are any brackets, and the names of the types. They are
written lifetimes first. -/
def generics : Reader (Bool × List String) := do
  if !(← mark? "<") then return (false, [])
  let (elements, names) ← iterate (fun (elements, names) => do
    if ← ahead (isMark ">") then return (false, elements, names)
    let ((isLifetime, name?), tokens) ← capturing (genericParameter g true)
    let names := name?.toList ++ names
    if ← ahead (isMark ">") then return (false, ⟨isLifetime, tokens, []⟩ :: elements, names)
    let (_, separator) ← capturing (mark ",")
    return (true, ⟨isLifetime, tokens, separator⟩ :: elements, names)) ([], [])
  write (lifetimesFirst elements.reverse)
  mark ">"
  return (true, names.reverse)

/-- Tokens that end a where clause or the bounds of one of its predicates. -/
def endsPredicate (ts : List Token) : Bool :=
  ts.isEmpty || isGroup .brace ts || isMark "," ts || isMark ";" ts ||
    (isMark ":" ts && !isMark "::" ts) || isMark "=" ts

/-- Tokens that can only begin generic parameters, not a type in angle brackets. -/
def startsGenerics (ts : List Token) : Bool :=
  let second := skip ts
  let third := skip second
  isMark "<" ts && (isMark ">" second || isMark "#" second ||
    ((isLifetime second || isName second) && (isMark ">" third || isMark "," third ||
      (isMark ":" third && !isMark "::" third) || isMark "=" third)) ||
    isWord "const" second)

/-- A predicate of a where clause; the answer holds the traits it demands of `Self`. -/
def predicate : Reader (List Path) := do
  if (← ahead isLifetime) && (← ahead2 (isMark ":")) then
    lifetime
    mark ":"
    lifetimesUntil fun ts => endsPredicate ts || isMark ":" ts
    return []
  if ← ahead (isWord "for") then boundLifetimes g
  let subject ← g (.type true)
  mark ":"
  let traits ← boundsUntil g endsPredicate
  return if subject.path? = some ⟨false, ["Self"]⟩ then traits else []

/-- A where clause; the answer holds the traits it demands of `Self`. -/
def whereClause : Reader (List Path) := do
  word "where"
  require !(← ahead startsGenerics)
  iterate (fun traits => do
    if ← ahead endsPredicate then return (false, traits)
    let traits := traits ++ (← predicate g)
    return (← mark? ",", traits)) []

/-- A where clause if there is one. -/
def whereClause? : Reader (Option (List Path)) := do
  if ← ahead (isWord "where") then return some (← whereClause g)
  return none

end GeneratorHost.Grammar
