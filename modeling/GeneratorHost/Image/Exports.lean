import GeneratorHost.Image.Elf
import GeneratorHost.Image.MachO
import GeneratorHost.Text.Lossy

/-! The names that a compiled image exports. -/
namespace GeneratorHost.Image

/-- Formats of images, told apart by their first bytes. -/
inductive Format where
  | elf (word : Nat)
  | machO (word : Nat) (order : ByteOrder)
  | wasm
  /-- A format that has no exports here. -/
  | other

/-- How many first bytes tell the format. -/
def magicSize : Nat := 16

def format (i : Image) : Except String Format :=
  if i.size < magicSize then .error "Could not read file magic"
  else
    match (i.slice 0 8).map (·.toNat) with
    | [0x7f, 0x45, 0x4c, 0x46, 1, _, _, _] => .ok (.elf 4)
    | [0x7f, 0x45, 0x4c, 0x46, 2, _, _, _] => .ok (.elf 8)
    | [0xfe, 0xed, 0xfa, 0xce, _, _, _, _] => .ok (.machO 4 .big)
    | [0xce, 0xfa, 0xed, 0xfe, _, _, _, _] => .ok (.machO 4 .little)
    | [0xfe, 0xed, 0xfa, 0xcf, _, _, _, _] => .ok (.machO 8 .big)
    | [0xcf, 0xfa, 0xed, 0xfe, _, _, _, _] => .ok (.machO 8 .little)
    | [0x00, 0x61, 0x73, 0x6d, _, _, 0, 0] => .ok .wasm
    -- An archive, a cache of libraries, and Mach-O images for several machines.
    | [0x21, 0x3c, 0x61, 0x72, 0x63, 0x68, 0x3e, 0x0a] => .ok .other
    | [0x64, 0x79, 0x6c, 0x64, 0x5f, 0x76, 0x31, 0x20] => .ok .other
    | [0xca, 0xfe, 0xba, 0xbe, _, _, _, _] => .ok .other
    | [0xca, 0xfe, 0xba, 0xbf, _, _, _, _] => .ok .other
    | [0x4d, 0x5a, _, _, _, _, _, _] => .error "Unknown MS-DOS file"
    | _ => .error "Unknown file magic"

/-- A Mach-O name without its underscore. -/
def withoutUnderscore (name : String) : String :=
  match name.toList with
  | '_' :: cs => String.ofList cs
  | _ => name

/-- Drops repeated neighbours. -/
def dedup : List String → List String
  | a :: b :: rest => if a = b then dedup (b :: rest) else a :: dedup (b :: rest)
  | names => names

/-- The exported names, sorted and each one once. -/
def exports (i : Image) : Except String (List String) := do
  let names ← match ← i.format with
    | .elf word => (Elf.exports i word).map (·.map Text.lossy)
    | .machO word order =>
      (MachO.exports i word order).map (·.map fun name => withoutUnderscore (Text.lossy name))
    | .wasm => .error "Invalid Wasm section header"
    | .other => .error "Unsupported file format"
  return dedup (names.mergeSort (· ≤ ·))

end GeneratorHost.Image
