import GeneratorHost.Image.Bytes

/-! A small ELF image that exports given names. -/
namespace GeneratorHost.Image

/-- A number in some bytes, the least byte first. -/
def littleEndian : Nat → Nat → List UInt8
  | 0, _ => []
  | width + 1, n => UInt8.ofNat n :: littleEndian width (n / 256)

/-- Fields one after the other, each a width and a number. -/
def fields (fs : List (Nat × Nat)) : List UInt8 := fs.flatMap fun (width, n) => littleEndian width n

/-- A function's symbol whose name is at an offset of the text table. -/
def symbol (name : Nat) : List UInt8 := fields [(4, name), (1, 0x12), (1, 0), (2, 1), (8, 0), (8, 0)]

/-- A section's header. -/
def sectionHeader (kind offset size link : Nat) : List UInt8 :=
  fields [(4, 0), (4, kind), (8, 0), (8, 0), (8, offset), (8, size), (4, link), (4, 0), (8, 0), (8, 0)]

/-- Where names begin that stand one after the other from an offset on, each with a zero behind. -/
def nameOffsets (start : Nat) : List String → List Nat
  | [] => []
  | name :: rest => start :: nameOffsets (start + name.utf8ByteSize + 1) rest

/-- An image whose header is followed by the symbols, their names and the headers of three
sections; the first section is empty. -/
def exporting (names : List String) : Image :=
  let symbols := (nameOffsets 0 names).flatMap symbol
  let texts := names.flatMap fun name => name.toUTF8.toList ++ [0]
  let behind := 64 + symbols.length + texts.length
  let header := [0x7f, 0x45, 0x4c, 0x46, 2, 1, 1] ++ List.replicate 9 0 ++
    fields [(2, 3), (2, 62), (4, 1), (8, 0), (8, 0), (8, behind), (4, 0), (2, 64), (2, 0), (2, 0),
      (2, 64), (2, 3), (2, 0)]
  .ofList (header ++ symbols ++ texts ++ sectionHeader 0 0 0 0 ++
    sectionHeader 11 64 symbols.length 2 ++ sectionHeader 3 (64 + symbols.length) texts.length 0)

end GeneratorHost.Image
