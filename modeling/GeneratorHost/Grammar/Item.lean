import GeneratorHost.Grammar.Signature

/-! Items of files, modules and blocks, and the members of traits, implementations and foreign
blocks. An item that is read but not understood is kept as it stands. -/
namespace GeneratorHost.Grammar

open Reader

variable (g : Grammar)

/-! ### Type declarations -/

/-- What a `type` declaration tells. -/
structure TypeDeclaration where
  name : String
  visible : Bool
  bounded : Bool
  defined : Bool
  found : List Declaration

/-- A `type` declaration in any of its forms; the where clause stands before or behind the
definition. -/
def typeDeclaration (mayDefault whereFirst whereLast : Bool) : Reader TypeDeclaration := do
  let visible ← visibility
  if mayDefault then
    let _ ← word? "default"
  word "type"
  let name ← name
  let (_, parameterFound) ← collecting (generics g)
  let (bounded, boundFound) ← collecting do
    let bounded ← mark? ":"
    if bounded then
      let _ ← boundsUntil g fun ts => isWord "where" ts || isMark "=" ts || isMark ";" ts
    return bounded
  let (first, firstFound) ← collecting do
    if whereFirst then whereClause? g else return none
  let (defined, definedFound) ← collecting do
    let defined ← mark? "="
    if defined then
      let _ ← g (.type true)
    return defined
  let (_, lastFound) ← collecting do
    if whereLast && first.isNone then whereClause? g else return none
  mark ";"
  return ⟨name, visible, bounded, defined,
    parameterFound ++ firstFound ++ lastFound ++ boundFound ++ definedFound⟩

/-! ### Constants -/

/-- What a `const` declaration tells from behind its word. -/
structure ConstDeclaration where
  name : String
  generic : Bool
  valued : Bool
  header : List Declaration
  body : List Declaration

def constDeclaration : Reader ConstDeclaration := do
  word "const"
  let name ← nameIf fun ts => isName ts || isWord "_" ts
  let ((angle, _), parameterFound) ← collecting (generics g)
  mark ":"
  let (_, typeFound) ← collecting (g (.type true))
  let (valued, body) ← collecting do
    let valued ← mark? "="
    if valued then
      let _ ← g (.expression true)
    return valued
  let (clause, whereFound) ← collecting (whereClause? g)
  mark ";"
  return ⟨name, angle || clause.isSome, valued, parameterFound ++ whereFound ++ typeFound, body⟩

/-! ### Imports -/

def useTree (root : Bool) : Reader (Option UseTree) := do
  if ← ahead (fun ts => isName ts || isWord "self" ts || isWord "super" ts || isWord "crate" ts ||
      isWord "try" ts) then
    let first ← anyName
    if ← mark? "::" then
      return (← g (.useTree false)).map (.path first)
    if ← word? "as" then
      return some (.rename first (← nameIf fun ts => isName ts || isWord "_" ts))
    return some (.name first)
  if ← mark? "*" then return some .glob
  let (trees, rooted) ← braced <| iterate (fun (trees, rooted) => do
    if ← atEnd then return (false, trees, rooted)
    let here ← if root then mark? "::" else pure false
    let (trees, rooted) := match ← g (.useTree (root && !here)) with
      | some tree => if rooted || here then (trees, true) else (tree :: trees, false)
      | none => (trees, true)
    if ← atEnd then return (false, trees, rooted)
    mark ","
    return (true, trees, rooted)) ([], false)
  return if rooted then none else some (.group trees.reverse)

def useItem : Reader (Option Parts) := do
  let _ ← visibility
  word "use"
  let isGlobal ← mark? "::"
  let tree? ← g (.useTree !isGlobal)
  mark ";"
  return tree?.map fun tree => { head := .use isGlobal tree }

def externCrate : Reader Parts := do
  let _ ← visibility
  word "extern"
  word "crate"
  let crate ← if ← ahead (isWord "self") then anyName else name
  let rename? ← if ← word? "as" then
      if ← ahead (isWord "_") then some <$> anyName else some <$> name
    else pure none
  mark ";"
  return { head := .externCrate crate rename? }

/-! ### Macros -/

/-- The semicolon behind macro arguments that are not in braces. -/
def endMacro (delimiter : Delimiter) : Reader Unit :=
  if delimiter = .brace then pure () else mark ";"

def macroItem : Reader Parts := do
  let _ ← modPath
  mark "!"
  let name? ← attempt (nameIf fun ts => isName ts || isWord "try" ts)
  endMacro (← anyGroup).1
  return { head := .itemMacro name? }

def memberMacro : Reader Parts := do
  endMacro (← macroCall)
  return { head := .memberMacro }

/-- A macro definition with `macro`, kept as it stands. -/
def macroDefinition : Reader Unit := do
  let _ ← visibility
  word "macro"
  let _ ← name
  if ← ahead (isGroup .parenthesis) then
    let _ ← anyGroup
  require (← ahead (isGroup .brace))
  let _ ← anyGroup

/-! ### Types of the user -/

/-- Fields of a struct, with the where clause before or behind them. -/
def structBody : Reader (List Declaration × List Declaration) := do
  let (clause, whereFound) ← collecting (whereClause? g)
  if clause.isNone && (← ahead (isGroup .parenthesis)) then
    let (_, fields) ← collecting (tupleFields g)
    let (_, whereFound) ← collecting (whereClause? g)
    mark ";"
    return (whereFound, fields)
  if ← ahead (isGroup .brace) then
    let (_, fields) ← collecting (namedFields g)
    return (whereFound, fields)
  mark ";"
  return (whereFound, [])

def structItem : Reader Parts := do
  let _ ← visibility
  word "struct"
  let name ← name
  let (_, parameterFound) ← collecting (generics g)
  let (whereFound, fields) ← structBody g
  return { head := .struct name, header := parameterFound ++ whereFound, body := fields }

/-- A variant from behind its attributes; the answer is its name. -/
def variantBody : Reader String := do
  let name ← name
  if ← ahead (isGroup .brace) then namedFields g
  else if ← ahead (isGroup .parenthesis) then tupleFields g
  if ← mark? "=" then
    let _ ← g (.expression true)
  return name

/-- A variant's attributes, its name and the declarations in both; a visibility before the name is dropped. -/
def variantParts : Reader ((List Attribute × List Declaration) × String × List Declaration) := do
  let outer ← collecting (outerAttributes g)
  let _ ← collecting (capturing visibility)
  return (outer, ← collecting (variantBody g))

def variant : Reader Unit := do
  let (((attributes, header), name, body), extent) ← spanning (variantParts g)
  declare ⟨.variant name, extent, attributes, header, body⟩

def enumItem : Reader Parts := do
  let _ ← visibility
  word "enum"
  let name ← name
  let (_, parameterFound) ← collecting (generics g)
  let (_, whereFound) ← collecting (whereClause? g)
  let (_, body) ← collecting (braced (separated "," (variant g)))
  return { head := .enum name, header := parameterFound ++ whereFound, body }

def unionItem : Reader Parts := do
  let _ ← visibility
  word "union"
  let name ← name
  let (_, parameterFound) ← collecting (generics g)
  let (_, whereFound) ← collecting (whereClause? g)
  let (_, body) ← collecting (namedFields g)
  return { head := .union name, header := parameterFound ++ whereFound, body }

/-! ### Members -/

/-- Whether a path or a name begins here, as that of a macro. -/
def startsMacro (ts : List Token) : Bool :=
  isName ts || isWord "self" ts || isWord "super" ts || isWord "crate" ts || isMark "::" ts

/-- The tokens behind a visibility. -/
def behindVisibility : Reader (Bool × List Token) := do
  let s ← get
  match visibility s with
  | some (visible, next) => return (visible, next.rest)
  | none => failure

/-- Reads what is kept as it stands. -/
def keeping (p : Reader Unit) : Reader (Option Parts) := do
  p
  return none

def traitFunction : Reader Parts := do
  let s ← signature g false
  if ← mark? ";" then return { head := .method s.name, header := s.found }
  let (inner, innerFound, body) ← functionBody g
  return { head := .method s.name, inner, innerFound, header := s.found, body }

def traitMember : Reader Unit :=
  declaring g do
    let visible ← visibility
    let defaulted ← word? "default"
    let ts := (← get).rest
    let second := skip ts
    let parts? ←
      if isWord "fn" ts || startsFunction false ts then some <$> traitFunction g
      else if isWord "const" ts && (isName second || isWord "_" second) then do
        let c ← constDeclaration g
        pure <| if c.generic then none
          else some { head := .assocConst c.name, header := c.header, body := c.body }
      else if isWord "type" ts then do
        let t ← typeDeclaration g false false true
        pure <| if t.visible then none else some { head := .assocType t.name, header := t.found }
      else do
        require (!visible && !defaulted && startsMacro ts)
        some <$> memberMacro
    return if visible || defaulted then none else parts?

def implFunction : Reader (Option Parts) := do
  let _ ← visibility
  let _ ← word? "default"
  let s ← signature g false
  if ← mark? ";" then return none
  let (inner, innerFound, body) ← functionBody g
  return some { head := .method s.name, inner, innerFound, header := s.found, body }

def implMember : Reader Unit :=
  declaring g do
    let (visible, ts) ← behindVisibility
    let defaulted := isWord "default" ts && !isMark "!" (skip ts)
    let ts := if defaulted then skip ts else ts
    if isWord "fn" ts || startsFunction false ts then implFunction g
    else if isWord "const" ts then do
      let _ ← visibility
      if defaulted then word "default"
      let c ← constDeclaration g
      pure <| if c.generic || !c.valued then none
        else some { head := .assocConst c.name, header := c.header, body := c.body }
    else if isWord "type" ts then do
      let t ← typeDeclaration g true false true
      pure <| if t.bounded || !t.defined then none
        else some { head := .assocType t.name, header := t.found }
    else do
      require (!visible && !defaulted && startsMacro ts)
      some <$> memberMacro

def foreignFunction : Reader (Option Parts) := do
  let _ ← visibility
  let s ← signature g true
  let (bodied, bodyFound) ← collecting do
    if ← ahead (isGroup .brace) then
      let _ ← functionBody g
      return true
    mark ";"
    return false
  return if s.safe || bodied then none
    else some { head := .foreignFn s.name, header := s.found ++ bodyFound }

def foreignStatic : Reader (Option Parts) := do
  let _ ← visibility
  let isUnsafe ← word? "unsafe"
  let safe ← if isUnsafe then pure false else word? "safe"
  word "static"
  let _ ← word? "mut"
  let name ← name
  mark ":"
  let (_, header) ← collecting (g (.type true))
  let valued ← mark? "="
  if valued then
    let _ ← g (.expression true)
  mark ";"
  return if isUnsafe || safe || valued then none else some { head := .foreignStatic name, header }

def foreignMember : Reader Unit :=
  declaring g do
    let (visible, ts) ← behindVisibility
    if isWord "fn" ts || startsFunction true ts then foreignFunction g
    else if isWord "static" ts ||
        ((isWord "unsafe" ts || isWord "safe" ts) && isWord "static" (skip ts)) then
      foreignStatic g
    else if isWord "type" ts then do
      let t ← typeDeclaration g false true true
      pure <| if t.bounded || t.defined then none
        else some { head := .foreignType t.name, header := t.found }
    else do
      require (!visible && startsMacro ts)
      some <$> memberMacro

/-- Members between braces, behind the attributes at the front. -/
def members (member : Reader Unit) : Reader (List Attribute × List Declaration × List Declaration) :=
  braced do
    let (inner, innerFound) ← collecting (innerAttributes g)
    let (_, body) ← collecting (untilEnd member)
    return (inner, innerFound, body)

/-! ### Items with members -/

/-- A trait from behind its name and generics. -/
def traitBody (name : String) (parameterFound : List Declaration) : Reader Parts := do
  let (declared, boundFound) ← collecting do
    if ← mark? ":" then
      boundsUntil g fun ts => isWord "where" ts || isGroup .brace ts
    else pure []
  let (clause, whereFound) ← collecting (whereClause? g)
  let (inner, innerFound, body) ← members g (traitMember g)
  return { head := .trait name (declared ++ clause.getD []), inner, innerFound,
           header := parameterFound ++ whereFound ++ boundFound, body }

/-- The bounds of a trait alias; none of them may be `const`. -/
def aliasBounds : Reader (List Path) := do
  let paths ← iterate (fun paths => do
    if ← ahead (fun ts => isWord "where" ts || isMark ";" ts) then return (false, paths)
    let paths := match ← g (.bound false false) with
      | .trait path => path :: paths
      | _ => paths
    return (← mark? "+", paths)) []
  return paths.reverse

/-- A trait alias from behind its name and generics. -/
def traitAliasBody (name : String) (parameterFound : List Declaration) : Reader Parts := do
  mark "="
  let (bounds, boundFound) ← collecting (aliasBounds g)
  let (_, whereFound) ← collecting (whereClause? g)
  mark ";"
  return { head := .traitAlias name bounds, header := parameterFound ++ whereFound ++ boundFound }

def traitItem : Reader Parts := do
  let _ ← visibility
  let isUnsafe ← word? "unsafe"
  let isAuto ← word? "auto"
  word "trait"
  let name ← name
  let (_, parameterFound) ← collecting (generics g)
  if !isUnsafe && !isAuto && (← ahead (isMark "=")) then traitAliasBody g name parameterFound
  else traitBody g name parameterFound

/-- An implementation; one that is visible or `const`, or whose trait is no path, is kept as it
stands. -/
def implItem : Reader (Option Parts) := do
  let visible ← visibility
  let _ ← word? "default"
  let _ ← word? "unsafe"
  word "impl"
  let ((_, parameters), parameterFound) ← collecting do
    if ← ahead startsGenerics then generics g else return (false, [])
  let isConst ← ahead fun ts => isWord "const" ts || (isMark "?" ts && isWord "const" (skip ts))
  if isConst then
    let _ ← mark? "?"
    word "const"
  let negative ← ahead fun ts => isMark "!" ts && !isGroup .brace (skip ts)
  if negative then mark "!"
  let ((first, firstText), firstFound) ← collecting <| capturing (g (.type true))
  write firstText
  let provided ← word? "for"
  require (provided || !negative)
  let ((subject, subjectText), subjectFound) ←
    if provided then collecting <| capturing (g (.type true))
    else pure ((first, firstText), [])
  if provided then write subjectText
  let (_, whereFound) ← collecting (whereClause? g)
  let (inner, innerFound, body) ← members g (implMember g)
  let trait? := match first with
    | .path false shape => if provided then some ⟨negative, shape.path⟩ else none
    | _ => none
  if visible || isConst || (provided && trait?.isNone) then return none
  return some { head := .impl parameters trait? ⟨subject.path?, Token.textAll subjectText⟩,
                inner, innerFound,
                header := parameterFound ++ whereFound ++ firstFound ++ subjectFound, body }

def moduleItem : Reader Parts := do
  let _ ← visibility
  let _ ← word? "unsafe"
  word "mod"
  let raw ← ahead isRaw
  let name ← nameIf fun ts => isName ts || isWord "try" ts
  if ← mark? ";" then return { head := .module name raw false }
  let (inner, innerFound, body) ← members g (g .item)
  return { head := .module name raw true, inner, innerFound, body }

def foreignModule : Reader Parts := do
  let _ ← word? "unsafe"
  convention
  let (inner, innerFound, body) ← members g (foreignMember g)
  return { head := .foreignMod, inner, innerFound, body }

/-! ### Items with values -/

def functionItem : Reader (Option Parts) := do
  let _ ← visibility
  let s ← signature g false
  if ← mark? ";" then return none
  let (inner, innerFound, body) ← functionBody g
  return some { head := .fn s.name, inner, innerFound, header := s.found, body }

def staticItem : Reader (Option Parts) := do
  let _ ← visibility
  word "static"
  let _ ← word? "mut"
  let name ← name
  let untyped ← ahead (isMark "=")
  let (_, header) ← collecting do
    if !untyped then
      mark ":"
      let _ ← g (.type true)
  let (valued, body) ← collecting do
    let valued ← mark? "="
    if valued then
      let _ ← g (.expression true)
    return valued
  mark ";"
  return if untyped || !valued then none else some { head := .static name, header, body }

def constItem : Reader (Option Parts) := do
  let _ ← visibility
  let c ← constDeclaration g
  return if c.generic || !c.valued then none
    else some { head := .const c.name, header := c.header, body := c.body }

def typeItem : Reader (Option Parts) := do
  let t ← typeDeclaration g false true false
  return if t.bounded || !t.defined then none
    else some { head := .typeAlias t.name, header := t.found }

/-- An item that begins with `unsafe`, with what follows the word. -/
def unsafeItem (second : List Token) : Reader (Option Parts) := do
  if isWord "trait" second || (isWord "auto" second && isWord "trait" (skip second)) then
    some <$> traitItem g
  else if isWord "impl" second then implItem g
  else if isWord "extern" second then some <$> foreignModule g
  else
    require (isWord "mod" second)
    some <$> moduleItem g

/-- An item from behind its attributes. -/
def itemRest : Reader (Option Parts) := do
  let (visible, ts) ← behindVisibility
  let second := skip ts
  if isWord "fn" ts || startsFunction false ts then functionItem g
  else if isWord "extern" ts then
    if isWord "crate" second then some <$> externCrate
    else
      require (isGroup .brace second || (isTextLiteral second && isGroup .brace (skip second)))
      some <$> foreignModule g
  else if isWord "use" ts then useItem g
  else if isWord "static" ts then staticItem g
  else if isWord "const" ts then constItem g
  else if isWord "unsafe" ts then unsafeItem g second
  else if isWord "mod" ts then some <$> moduleItem g
  else if isWord "type" ts then typeItem g
  else if isWord "struct" ts then some <$> structItem g
  else if isWord "enum" ts then some <$> enumItem g
  else if isWord "union" ts && isName second then some <$> unionItem g
  else if isWord "trait" ts || (isWord "auto" ts && isWord "trait" second) then some <$> traitItem g
  else if isWord "impl" ts || (isWord "default" ts && !isMark "!" second) then implItem g
  else if isWord "macro" ts then keeping macroDefinition
  else
    require (!visible && startsMacro ts)
    some <$> macroItem

def item : Reader Unit := declaring g (itemRest g)

end GeneratorHost.Grammar
