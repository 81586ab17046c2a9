/-! JSON values. Numbers keep their spelling. -/
namespace GeneratorHost

/-- The text of a JSON string; nothing where it holds half of a surrogate pair. -/
abbrev JsonText := Option String

/-- A JSON value; an object keeps its fields in order, repeated ones too. -/
inductive JsonValue where
  | null
  | bool (value : Bool)
  | number (spelling : List Char)
  | string (text : JsonText)
  | array (items : List JsonValue)
  | object (fields : List (JsonText × JsonValue))

namespace JsonValue

def ofString (s : String) : JsonValue := .string (some s)

def ofNat (n : Nat) : JsonValue := .number (Nat.toDigits 10 n)

def ofOption {α : Type} (f : α → JsonValue) : Option α → JsonValue
  | some a => f a
  | none => .null

/-- The text of a string that is one. -/
def text? : JsonValue → Option String
  | .string text => text
  | _ => none

def bool? : JsonValue → Option Bool
  | .bool b => some b
  | _ => none

/-- A whole number written in digits alone, at most `limit`. -/
def nat? (limit : Nat) : JsonValue → Option Nat
  | .number cs =>
    let n := Nat.ofDigitChars 10 cs 0
    if cs.all Char.isDigit && n ≤ limit then some n else none
  | _ => none

def elements? : JsonValue → Option (List JsonValue)
  | .array items => some items
  | _ => none

/-- Whether all field names are texts and none of the known ones is repeated. -/
def fieldsValid (known : List String) (fields : List (JsonText × JsonValue)) : Bool :=
  fields.all (·.1.isSome) &&
    known.all fun name => (fields.filter (·.1 = some name)).length ≤ 1

/-- The values of known fields, which an array holds by position. -/
def members? (known : List String) : JsonValue → Option (List (Option JsonValue))
  | .object fields =>
    if fieldsValid known fields then
      some (known.map fun name => (fields.find? (·.1 = some name)).map (·.2))
    else none
  | .array items =>
    if items.length = known.length then some (items.map some) else none
  | _ => none

end JsonValue
end GeneratorHost
