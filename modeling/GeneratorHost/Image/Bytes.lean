/-! The bytes of an image: whole numbers in either byte order and texts that end in a zero. -/
namespace GeneratorHost

inductive ByteOrder where
  | little
  | big
deriving DecidableEq, Repr

/-- The bytes of a file that the compiler wrote. -/
structure Image where
  bytes : Array UInt8
deriving DecidableEq

namespace Image

def size (i : Image) : Nat := i.bytes.size

def ofList (bytes : List UInt8) : Image := ⟨bytes.toArray⟩

def byte (i : Image) (offset : Nat) : UInt8 := (i.bytes[offset]?).getD 0

/-- Some bytes in a row; behind the end they are zero. -/
def slice (i : Image) (offset count : Nat) : List UInt8 :=
  (List.range count).map fun k => i.byte (offset + k)

/-- Whether a range of bytes is there. -/
def holds (i : Image) (offset count : Nat) : Bool := offset + count ≤ i.size

/-- The number that bytes stand for. -/
def value (order : ByteOrder) (bytes : List UInt8) : Nat :=
  let bytes := match order with
    | .little => bytes.reverse
    | .big => bytes
  bytes.foldl (fun n b => 256 * n + b.toNat) 0

/-- The number in some bytes. -/
def number (i : Image) (order : ByteOrder) (offset width : Nat) : Nat :=
  value order (i.slice offset width)

/-- A table of texts: a range of bytes. -/
structure TextTable where
  start : Nat
  stop : Nat
deriving DecidableEq, Repr

/-- The text at an offset of a table, up to the zero that must end it inside the table. -/
def text? (i : Image) (table : TextTable) (offset : Nat) : Option (List UInt8) :=
  let start := table.start + offset
  if start ≤ table.stop && table.stop ≤ i.size then
    let bytes := i.slice start (table.stop - start)
    if bytes.contains 0 then some (bytes.takeWhile (· ≠ 0)) else none
  else none

end Image
end GeneratorHost
