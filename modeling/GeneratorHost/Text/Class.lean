import GeneratorHost.Text.IdentifierTable
import GeneratorHost.Text.LetterTable

/-! Character classes of source text: blanks, letters, digits and identifier characters. -/
namespace GeneratorHost.Text

/-- Whether a code point lies in one of the runs, given as alternating first and last points. -/
def inRuns (point : Nat) : List Nat → Bool
  | first :: last :: rest => (first ≤ point && point ≤ last) || inRuns point rest
  | _ => false

/-- White space in the sense of the character database. -/
def isBlank (c : Char) : Bool :=
  let n := c.toNat
  n = 0x20 || (0x09 ≤ n && n ≤ 0x0d) || n = 0x85 || n = 0xa0 || n = 0x1680 ||
    (0x2000 ≤ n && n ≤ 0x200a) || n = 0x2028 || n = 0x2029 || n = 0x202f || n = 0x205f || n = 0x3000

def isAlphabetic (c : Char) : Bool :=
  c.isAlpha || (128 ≤ c.toNat && inRuns c.toNat alphabeticRanges)

def isNumeric (c : Char) : Bool :=
  c.isDigit || (128 ≤ c.toNat && inRuns c.toNat numericRanges)

/-- A letter or the underscore, the first character of an identifier. -/
def startsIdentifier (c : Char) : Bool :=
  c = '_' || c.isAlpha || (128 ≤ c.toNat && inRuns c.toNat identifierStartRanges)

/-- A character of an identifier after the first. -/
def continuesIdentifier (c : Char) : Bool :=
  startsIdentifier c || c.isDigit || (128 ≤ c.toNat && inRuns c.toNat identifierContinueRanges)

def isHexDigit (c : Char) : Bool :=
  c.isDigit || ('a' ≤ c && c ≤ 'f') || ('A' ≤ c && c ≤ 'F')

/-- The value of a hexadecimal digit. -/
def hexValue (c : Char) : Nat :=
  if c.isDigit then c.toNat - 48
  else if 'a' ≤ c then c.toNat - 87
  else c.toNat - 55

end GeneratorHost.Text
