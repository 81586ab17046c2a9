import GeneratorHost.Generator.View

/-! The declarations of a pass in memory, where units read them: texts and lists stand behind an address and a count,
and symbols behind an address. The null address has nothing behind it. -/
namespace GeneratorHost

abbrev Address := Nat

def Address.null : Address := 0

/-- A text in memory: its first byte and how many there are. -/
structure TextCell where
  address : Address
  length : Nat
deriving DecidableEq, Repr

/-- Texts in a row in memory. -/
structure ListCell where
  address : Address
  count : Nat
deriving DecidableEq, Repr

structure SymbolCell where
  kind : TextCell
  name : TextCell
  qualifiedName : TextCell
  nameSpace : TextCell
  attributes : ListCell
  interfaces : ListCell
deriving DecidableEq, Repr

structure DeclarationCell where
  kind : TextCell
  file : TextCell
  text : TextCell
  extent : Extent
  parent : Int
  symbol : Address
deriving DecidableEq, Repr

/-- What is put into memory as a whole. -/
inductive Block where
  | bytes (bytes : List UInt8)
  | texts (cells : List TextCell)
  | symbol (cell : SymbolCell)
  | declarations (cells : List DeclarationCell)
deriving DecidableEq, Repr

namespace Block

def bytes? : Block → Option (List UInt8)
  | bytes bs => some bs
  | _ => none

def texts? : Block → Option (List TextCell)
  | texts cells => some cells
  | _ => none

def symbol? : Block → Option SymbolCell
  | symbol cell => some cell
  | _ => none

def declarations? : Block → Option (List DeclarationCell)
  | declarations cells => some cells
  | _ => none

end Block

/-- Memory by what was put into it. The first block is at address one, and no block ever moves. -/
structure Memory where
  blocks : List Block := []
deriving DecidableEq, Repr

/-! ### The host's side -/

/-- Puts something into memory and tells where it is. -/
abbrev Layout := StateM Memory

namespace Layout

def put (b : Block) : Layout Address := fun m => (m.blocks.length + 1, ⟨m.blocks ++ [b]⟩)

def text (t : RawText) : Layout TextCell :=
  match t.bytes? with
  | some bytes => return ⟨← put (.bytes bytes), bytes.length⟩
  | none => return ⟨.null, 0⟩

def texts (ts : List RawText) : Layout ListCell := do
  let cells ← ts.mapM text
  return ⟨← put (.texts cells), cells.length⟩

def symbol (s : RawSymbol) : Layout Address := do
  let kind ← text s.kind
  let name ← text s.name
  let qualifiedName ← text s.qualifiedName
  let nameSpace ← text s.nameSpace
  let attributes ← texts s.attributes
  let interfaces ← texts s.interfaces
  put (.symbol { kind, name, qualifiedName, nameSpace, attributes, interfaces })

/-- The address of a symbol, null without one. -/
def symbol? : Option RawSymbol → Layout Address
  | some s => symbol s
  | none => return .null

def declaration (d : RawDeclaration) : Layout DeclarationCell := do
  let symbol ← symbol? d.symbol?
  let kind ← text d.kind
  let file ← text d.file
  let text ← text d.text
  return { kind, file, text, extent := d.extent, parent := d.parent, symbol }

/-- Where the declarations of a pass are, and how many. -/
def declarations (ds : List RawDeclaration) : Layout (Address × Nat) := do
  let cells ← ds.mapM declaration
  return (← put (.declarations cells), cells.length)

end Layout

/-! ### The unit's side -/

namespace Memory

/-- What is at an address; `none` means that a unit would read what is not there. -/
def block? (m : Memory) (a : Address) : Option Block :=
  if a = .null then none else m.blocks[a - 1]?

/-- Some cells in a row; behind null and of none there is nothing to read. -/
def row? {α : Type} (m : Memory) (cells? : Block → Option (List α)) (a : Address) (count : Nat) : Option (List α) :=
  if a = .null || count = 0 then some []
  else ((m.block? a).bind cells?).bind fun cells =>
    if count ≤ cells.length then some (cells.take count) else none

def text? (m : Memory) (c : TextCell) : Option String :=
  (m.row? Block.bytes? c.address c.length).map Text.lossy

def texts? (m : Memory) (c : ListCell) : Option (List String) := do
  (← m.row? Block.texts? c.address c.count).mapM m.text?

def symbol? (m : Memory) (a : Address) : Option SymbolView := do
  let c ← (m.block? a).bind Block.symbol?
  return {
    kind := ← m.text? c.kind
    name := ← m.text? c.name
    qualifiedName := ← m.text? c.qualifiedName
    nameSpace := ← m.text? c.nameSpace
    attributes := ← m.texts? c.attributes
    interfaces := ← m.texts? c.interfaces }

/-- The symbol at an address that may be null. -/
def symbolUnlessNull? (m : Memory) (a : Address) : Option (Option SymbolView) :=
  if a = .null then some none else (m.symbol? a).map some

def declaration? (m : Memory) (c : DeclarationCell) (index : Nat) : Option DeclarationView := do
  let symbol? ← m.symbolUnlessNull? c.symbol
  return {
    index
    kind := ← m.text? c.kind
    file := ← m.text? c.file
    text := ← m.text? c.text
    extent := c.extent
    parent? := if c.parent < 0 then none else some c.parent.toNat
    symbol? }

def declarations? (m : Memory) (a : Address) (count : Nat) : Option (List DeclarationView) := do
  (← m.row? Block.declarations? a count).zipIdx.mapM fun (c, index) => m.declaration? c index

/-- The declarations of a pass as a unit reads them, once the host has put them into memory. -/
def views? (m : Memory) (ds : List RawDeclaration) : Option (List DeclarationView) :=
  let ((a, count), m) := (Layout.declarations ds).run m
  m.declarations? a count

end Memory
end GeneratorHost
