import GeneratorHost.Host.Edition
import GeneratorHost.Text.Position

/-! Source files of a host crate and the correspondence of positions and byte offsets. -/
namespace GeneratorHost

/-- A line of a text, without its end, and the byte offset it begins at. -/
structure TextLine where
  start : Nat
  chars : List Char
deriving DecidableEq, Repr

namespace TextLine

/-- Lines one after the other from a byte offset on. -/
def place (start : Nat) : List (List Char) → List TextLine
  | [] => []
  | cs :: rest => ⟨start, cs⟩ :: place (start + Text.byteCount cs + 1) rest

/-- The lines of a text, ended by line feeds alone; there is always a last one, maybe empty. -/
def ofText (text : String) : Array TextLine := (place 0 (Text.splitChar '\n' text.toList)).toArray

end TextLine

/-- A source file: its path as shown, the module it is mounted at, and its text. -/
structure SourceTree where
  path : String
  module : String
  text : String
  edition : Edition
  lines : Array TextLine := TextLine.ofText text
  lines_eq : lines = TextLine.ofText text := by rfl

namespace SourceTree

def isCrateRoot (t : SourceTree) : Bool := t.module = "crate"

def byteLength (t : SourceTree) : Nat := t.text.utf8ByteSize

/-- Byte offset of a position. A column behind the end of its line is the line's end, and a line
that does not exist is the end of the text. -/
def offset (t : SourceTree) (p : Position) : Nat :=
  match p.line with
  | 0 => t.byteLength
  | n + 1 =>
    match t.lines[n]? with
    | some line => line.start + Text.byteCount (line.chars.take p.column)
    | none => t.byteLength

/-- The extent of the whole text. -/
def fullExtent (t : SourceTree) : Extent :=
  ⟨.origin, ⟨t.lines.size, (t.lines.back?.map (·.chars.length)).getD 0⟩⟩

/-- The text of a byte range; empty where the range is none. -/
def slice (t : SourceTree) (start stop : Nat) : String :=
  if start ≤ stop then
    match (Text.dropBytes? start t.text.toList).bind (Text.takeBytes? (stop - start)) with
    | some cs => String.ofList cs
    | none => ""
  else ""

end SourceTree
end GeneratorHost
