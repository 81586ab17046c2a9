import GeneratorHost.Image.Bytes

/-! Mach-O images: the names of the symbols that are defined for other images. -/
namespace GeneratorHost.MachO

/-- Byte order and width of addresses of an image. -/
structure Layout where
  word : Nat
  order : ByteOrder

namespace Layout

def headerSize (l : Layout) : Nat := if l.word = 8 then 32 else 28

/-- The kind of the commands that describe segments. -/
def segmentKind (l : Layout) : Nat := if l.word = 8 then 0x19 else 1

def segmentSize (l : Layout) : Nat := if l.word = 8 then 72 else 56

def sectionSize (l : Layout) : Nat := if l.word = 8 then 80 else 68

def symbolSize (l : Layout) : Nat := if l.word = 8 then 16 else 12

end Layout

/-- Kinds of commands. -/
def symbolsKind : Nat := 2

def dynamicKind : Nat := 11

/-- A command: its kind and the range of its bytes. -/
structure Command where
  kind : Nat
  offset : Nat
  size : Nat

/-- The place of a symbol table: where it starts, how many symbols it has, and the names. -/
structure Symbols where
  offset : Nat := 0
  count : Nat := 0
  texts : Image.TextTable := ⟨0, 0⟩

structure File where
  image : Image
  layout : Layout

namespace File

def number (f : File) (offset width : Nat) : Nat := f.image.number f.layout.order offset width

def tooShort {α : Type} : Except String α := .error "Invalid Mach-O command size"

/-- The commands from an offset on, and the error that ends them early. -/
def commandsFrom (f : File) (stop : Nat) : Nat → Nat → List Command × Option String
  | 0, _ => ([], none)
  | count + 1, offset =>
    if stop < offset + 8 then ([], some "Invalid Mach-O load command header")
    else
      let size := f.number (offset + 4) 4
      if size < 8 || stop < offset + size then ([], some "Invalid Mach-O load command size")
      else
        let (rest, error?) := f.commandsFrom stop count (offset + size)
        (⟨f.number offset 4, offset, size⟩ :: rest, error?)

/-- All commands; without room for them there is only an error. -/
def commands (f : File) : Except String (List Command × Option String) :=
  let start := f.layout.headerSize
  let size := f.number 20 4
  if f.image.holds start size then .ok (f.commandsFrom (start + size) (f.number 16 4) start)
  else .error "Invalid Mach-O load command table size"

/-- Checks the room for the sections of a segment. -/
def checkSegment (f : File) (c : Command) : Except String Unit :=
  let l := f.layout
  if c.size < l.segmentSize then tooShort
  else if c.size < l.segmentSize + f.number (c.offset + l.segmentSize - 8) 4 * l.sectionSize then
    .error "Invalid Mach-O number of sections"
  else .ok ()

/-- The symbol table that a command describes. -/
def symbolsOf (f : File) (c : Command) : Except String Symbols :=
  let offset := f.number (c.offset + 8) 4
  let count := f.number (c.offset + 12) 4
  let texts := f.number (c.offset + 16) 4
  if c.size < 24 then tooShort
  else if !f.image.holds offset (count * f.layout.symbolSize) then
    .error "Invalid Mach-O symbol table offset or size"
  else .ok ⟨offset, count, ⟨texts, texts + f.number (c.offset + 20) 4⟩⟩

/-- The last symbol table that the commands describe. -/
def symbols (f : File) (cs : List Command) : Except String Symbols :=
  cs.foldlM (fun found c =>
    if c.kind = f.layout.segmentKind then (f.checkSegment c).map fun _ => found
    else if c.kind = symbolsKind then f.symbolsOf c
    else .ok found) {}

/-- The name of a symbol. -/
def name (f : File) (s : Symbols) (index : Nat) : Except String (List UInt8) :=
  if s.count ≤ index then .error "Invalid Mach-O symbol index"
  else
    match f.image.text? s.texts (f.number (s.offset + index * f.layout.symbolSize) 4) with
    | some name => .ok name
    | none => .error "Invalid Mach-O symbol name offset"

end File

/-- The names that an image exports: a run of the symbol table. -/
def exports (image : Image) (word : Nat) (order : ByteOrder) : Except String (List (List UInt8)) := do
  let f : File := ⟨image, ⟨word, order⟩⟩
  if !image.holds 0 f.layout.headerSize then throw "Invalid Mach-O header size or alignment"
  let symbols ← match f.commands with
    | .ok (cs, _) => f.symbols cs
    | .error _ => pure {}
  let (cs, error?) ← f.commands
  match cs.find? (·.kind = dynamicKind), error? with
  | some c, _ =>
    if c.size < 80 then File.tooShort
    else
      let first := f.number (c.offset + 16) 4
      (List.range' first (min (f.number (c.offset + 20) 4) (symbols.count + 1))).mapM (f.name symbols)
  | none, some error => throw error
  | none, none => return []

end GeneratorHost.MachO
