/-! Places in a text. -/
namespace GeneratorHost

/-- A place in a text: lines count from one, columns count characters from zero. -/
structure Position where
  line : Nat
  column : Nat
deriving DecidableEq, Repr

namespace Position

/-- The place before the first character. -/
def origin : Position := ⟨1, 0⟩

instance : Inhabited Position := ⟨origin⟩

/-- The place behind a character; only a line feed begins a line. -/
def after (p : Position) (c : Char) : Position :=
  if c = '\n' then ⟨p.line + 1, 0⟩ else ⟨p.line, p.column + 1⟩

/-- The place behind a run of characters. -/
def afterAll (p : Position) (cs : List Char) : Position := cs.foldl after p

end Position

/-- The stretch of text between two places. -/
structure Extent where
  start : Position
  stop : Position
deriving DecidableEq, Repr, Inhabited

end GeneratorHost
