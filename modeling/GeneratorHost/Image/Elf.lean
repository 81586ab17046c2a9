import GeneratorHost.Image.Bytes

/-! ELF images: the names of the functions and objects that the table of dynamic symbols defines. -/
namespace GeneratorHost.Elf

/-- The class and the byte order of an image. Fields are placed by the width of an address. -/
structure Layout where
  word : Nat
  order : ByteOrder

/-- A section as its header describes it. -/
structure Section where
  kind : Nat
  offset : Nat
  size : Nat
  link : Nat
  info : Nat

/-- A dynamic symbol. -/
structure DynamicSymbol where
  name : Nat
  kind : Nat
  section_ : Nat
  size : Nat

namespace Layout

def headerSize (l : Layout) : Nat := 40 + 3 * l.word

def segmentSize (l : Layout) : Nat := 8 + 6 * l.word

def sectionSize (l : Layout) : Nat := 16 + 6 * l.word

def symbolSize (l : Layout) : Nat := 8 + 2 * l.word

end Layout

/-- Kinds of sections. -/
def symbolTable : Nat := 2

def textTable : Nat := 3

def withoutBytes : Nat := 8

def dynamicSymbols : Nat := 11

def extendedIndices : Nat := 18

/-- Whether a section holds relocations. -/
def isRelocation (kind : Nat) : Bool := [4, 9, 0x40000014].contains kind

/-- Addresses have 64 bits. -/
def addressLimit : Nat := 18446744073709551616

/-- The end of a range. -/
def stop? (start size : Nat) : Option Nat :=
  if start + size < addressLimit then some (start + size) else none

/-- An image with a valid header. -/
structure File where
  image : Image
  layout : Layout

namespace File

/-- The number of `width` bytes at an offset. -/
def number (f : File) (offset width : Nat) : Nat := f.image.number f.layout.order offset width

/-- Reads the header; the class is the one that the magic number names. -/
def ofImage (image : Image) (word : Nat) : Except String File :=
  let order := if image.byte 5 = 1 then ByteOrder.little else .big
  let file : File := ⟨image, ⟨word, order⟩⟩
  if !image.holds 0 file.layout.headerSize then .error "Invalid ELF header size or alignment"
  else if [1, 2].contains (image.byte 5) && image.byte 6 = 1 then .ok file
  else .error "Unsupported ELF header"

/-- The header's two-byte fields behind the addresses, by their position. -/
def field (f : File) (index : Nat) : Nat := f.number (28 + 3 * f.layout.word + 2 * index) 2

def segmentOffset (f : File) : Nat := f.number (24 + f.layout.word) f.layout.word

def sectionOffset (f : File) : Nat := f.number (24 + 2 * f.layout.word) f.layout.word

def segmentEntrySize (f : File) : Nat := f.field 1

def segmentCount (f : File) : Nat := f.field 2

def sectionEntrySize (f : File) : Nat := f.field 3

def sectionCount (f : File) : Nat := f.field 4

def sectionNames (f : File) : Nat := f.field 5

/-- The value of a two-byte field whose true value is in the first section's header. -/
def overflow : Nat := 0xffff

def sectionAt (f : File) (offset : Nat) : Section :=
  let w := f.layout.word
  { kind := f.number (offset + 4) 4
    offset := f.number (offset + 8 + 2 * w) w
    size := f.number (offset + 8 + 3 * w) w
    link := f.number (offset + 8 + 4 * w) 4
    info := f.number (offset + 12 + 4 * w) 4 }

/-- The header of the first section, if there are any. -/
def firstSection (f : File) : Except String (Option Section) :=
  if f.sectionOffset = 0 then .ok none
  else if f.sectionEntrySize ≠ f.layout.sectionSize then
    .error "Invalid ELF section header entry size"
  else if f.image.holds f.sectionOffset f.layout.sectionSize then
    .ok (some (f.sectionAt f.sectionOffset))
  else .error "Invalid ELF section header size or alignment"

/-- Checks that the headers of the segments are there. -/
def checkSegments (f : File) : Except String Unit := do
  if f.segmentOffset = 0 then return
  let count ←
    if f.segmentCount < overflow then pure f.segmentCount
    else match ← f.firstSection with
      | some first => pure first.info
      | none => throw "Missing ELF section headers for e_phnum overflow"
  if count = 0 then return
  if f.segmentEntrySize ≠ f.layout.segmentSize then
    throw "Invalid ELF program header entry size"
  if !f.image.holds f.segmentOffset (count * f.layout.segmentSize) then
    throw "Invalid ELF program header size or alignment"

def sections (f : File) : Except String (List Section) := do
  if f.sectionOffset = 0 then return []
  let count ←
    if 0 < f.sectionCount then pure f.sectionCount
    else match ← f.firstSection with
      | some first => pure first.size
      | none => pure 0
  if count = 0 then return []
  if f.sectionEntrySize ≠ f.layout.sectionSize then
    throw "Invalid ELF section header entry size"
  if !f.image.holds f.sectionOffset (count * f.layout.sectionSize) then
    throw "Invalid ELF section header offset/size/alignment"
  return (List.range count).map fun k => f.sectionAt (f.sectionOffset + k * f.layout.sectionSize)

/-- Checks that the section with the names of sections is there. -/
def checkSectionNames (f : File) (ss : List Section) : Except String Unit := do
  if ss.isEmpty then return
  let index ←
    if f.sectionNames ≠ overflow then pure f.sectionNames
    else match ← f.firstSection with
      | some first => pure first.link
      | none => throw "Missing ELF section headers for e_shstrndx overflow"
  match ss[index]? with
  | none => throw "Invalid ELF e_shstrndx"
  | some s =>
    if s.kind ≠ withoutBytes && (stop? s.offset s.size).isNone then
      throw "Invalid ELF shstrtab size"

def symbolAt (f : File) (offset : Nat) : DynamicSymbol :=
  if f.layout.word = 8 then
    { name := f.number offset 4, kind := f.number (offset + 4) 1 % 16
      section_ := f.number (offset + 6) 2, size := f.number (offset + 16) 8 }
  else
    { name := f.number offset 4, kind := f.number (offset + 12) 1 % 16
      section_ := f.number (offset + 14) 2, size := f.number (offset + 8) 4 }

/-- The symbols of the first section of a kind, the place of that section and the texts that hold
the names. Sections with the indices that do not fit into a symbol have to be there too. -/
def symbols (f : File) (ss : List Section) (kind : Nat) :
    Except String (Nat × List DynamicSymbol × Image.TextTable) := do
  let index := ss.findIdx (·.kind = kind)
  match ss[index]? with
  | none => return (0, [], ⟨0, 0⟩)
  | some s =>
    if !f.image.holds s.offset s.size then throw "Invalid ELF symbol table data"
    let texts ← match (if s.link = 0 then none else ss[s.link]?) with
      | none => throw "Invalid ELF section index"
      | some t =>
        if t.kind ≠ textTable then throw "Invalid ELF string section type"
        else match stop? t.offset t.size with
          | some stop => pure ⟨t.offset, stop⟩
          | none => throw "Invalid ELF string section offset or size"
    if ss.any fun t => t.kind = extendedIndices && t.link = index && !f.image.holds t.offset t.size then
      throw "Invalid ELF symtab_shndx data"
    return (index, (List.range (s.size / f.layout.symbolSize)).map fun k =>
      f.symbolAt (s.offset + k * f.layout.symbolSize), texts)

/-- Checks that relocations of a symbol table are for sections that are there. -/
def checkRelocations (ss : List Section) (symbols : Nat) : Except String Unit :=
  if ss.any fun s => isRelocation s.kind && s.link = symbols && ss.length ≤ s.info then
    .error "Invalid ELF sh_info for relocation section"
  else .ok ()

end File

namespace DynamicSymbol

/-- Whether a symbol is defined in a section of the image and is a function, an object, or
something else that has a size. -/
def isDefinition (s : DynamicSymbol) : Bool :=
  s.section_ ≠ 0 && (s.section_ < 0xff00 || s.section_ = 0xffff) &&
    match s.kind with
    | 0 => s.size ≠ 0
    | 1 | 2 => true
    | _ => false

end DynamicSymbol

/-- The names that an image with addresses of `word` bytes exports. -/
def exports (image : Image) (word : Nat) : Except String (List (List UInt8)) := do
  let f ← File.ofImage image word
  f.checkSegments
  let ss ← f.sections
  f.checkSectionNames ss
  let (table, _, _) ← f.symbols ss symbolTable
  let (_, dynamic, texts) ← f.symbols ss dynamicSymbols
  File.checkRelocations ss table
  (dynamic.filter (·.isDefinition)).mapM fun s =>
    match image.text? texts s.name with
    | some name => .ok name
    | none => .error "Invalid ELF symbol name offset"

end GeneratorHost.Elf
