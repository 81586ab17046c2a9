import GeneratorHost.Json.Basic
import GeneratorHost.Text.Lossy

/-! Writing JSON values over several lines, each level indented by two spaces. -/
namespace GeneratorHost.JsonValue

/-- Two hexadecimal digits. -/
def hexPair (n : Nat) : List Char := [Nat.digitChar (n / 16), Nat.digitChar (n % 16)]

/-- The escaped form of a character. -/
def escape (c : Char) : List Char :=
  if c = '\x22' || c = '\\' then ['\\', c]
  else if c = '\n' then ['\\', 'n']
  else if c = '\r' then ['\\', 'r']
  else if c = '\t' then ['\\', 't']
  else if c.toNat = 8 then ['\\', 'b']
  else if c.toNat = 12 then ['\\', 'f']
  else if c.toNat < 0x20 then "\\u00".toList ++ hexPair c.toNat
  else [c]

/-- A string between quotes; one that is no text shows the replacement character. -/
def quoteText (text : JsonText) : String :=
  let cs := match text with
    | some s => s.toList
    | none => [Text.replacement]
  String.ofList ('\x22' :: cs.flatMap escape ++ ['\x22'])

def indent (depth : Nat) : String := String.ofList (List.replicate (2 * depth) ' ')

/-- Lines between brackets. -/
def enclose (first last : String) (depth : Nat) (lines : List String) : String :=
  if lines.isEmpty then first ++ last
  else
    let inner := "\n" ++ indent (depth + 1)
    first ++ inner ++ ("," ++ inner).intercalate lines ++ "\n" ++ indent depth ++ last

mutual

def printAt (depth : Nat) : JsonValue → String
  | .null => "null"
  | .bool true => "true"
  | .bool false => "false"
  | .number spelling => String.ofList spelling
  | .string text => quoteText text
  | .array items => enclose "[" "]" depth (printItems (depth + 1) items)
  | .object fields => enclose "\x7b" "\x7d" depth (printFields (depth + 1) fields)

def printItems (depth : Nat) : List JsonValue → List String
  | [] => []
  | item :: rest => printAt depth item :: printItems depth rest

def printFields (depth : Nat) : List (JsonText × JsonValue) → List String
  | [] => []
  | (key, item) :: rest => (quoteText key ++ ": " ++ printAt depth item) :: printFields depth rest

end

/-- The text of a value. -/
def print (v : JsonValue) : String := printAt 0 v

end GeneratorHost.JsonValue
