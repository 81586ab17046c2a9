import GeneratorHost.Text.Class
import GeneratorHost.Text.PrintableTable

/-! Quoted text: marks, control characters and characters without a visible form are escaped. -/
namespace GeneratorHost.Text

/-- Whether a character has a visible form of its own. -/
def isPrintable (c : Char) : Bool :=
  if c.toNat < 128 then 0x20 ≤ c.toNat && c.toNat < 0x7f else !inRuns c.toNat unprintableRanges

/-- Whether a character joins onto the one before it. -/
def isCombining (c : Char) : Bool :=
  128 ≤ c.toNat && inRuns c.toNat combiningRanges

/-- The escape that names a character by its code point. -/
def pointEscape (c : Char) : List Char :=
  "\\u\x7b".toList ++ Nat.toDigits 16 c.toNat ++ ['\x7d']

/-- The escaped form of a character in quoted text. -/
def escapeChar (c : Char) : List Char :=
  if c = '\x00' then ['\\', '0']
  else if c = '\t' then ['\\', 't']
  else if c = '\r' then ['\\', 'r']
  else if c = '\n' then ['\\', 'n']
  else if c = '\x22' || c = '\\' then ['\\', c]
  else if isCombining c || !isPrintable c then pointEscape c
  else [c]

/-- Text between quotation marks; an apostrophe is not escaped. -/
def quoted (s : String) : String :=
  String.ofList ('\x22' :: s.toList.flatMap escapeChar ++ ['\x22'])

/-- Paths between quotation marks and brackets; in a path an apostrophe is escaped too. -/
def quotedPaths (paths : List String) : String :=
  let escape (c : Char) := if c = Char.ofNat 39 then ['\\', c] else escapeChar c
  let one (p : String) := String.ofList ('\x22' :: p.toList.flatMap escape ++ ['\x22'])
  "[" ++ ", ".intercalate (paths.map one) ++ "]"

/-- Text as a literal of source code: quoted text, except that a zero character before an octal
digit is written as a two-digit escape. -/
def quotedLiteral (cs : List Char) : String :=
  let rec escapeAll : List Char → List Char
    | [] => []
    | c :: rest =>
      (if c = '\x00' then
        match rest with
        | d :: _ => if '0' ≤ d && d ≤ '7' then ['\\', 'x', '0', '0'] else ['\\', '0']
        | [] => ['\\', '0']
      else escapeChar c) ++ escapeAll rest
  String.ofList ('\x22' :: escapeAll cs ++ ['\x22'])

end GeneratorHost.Text
