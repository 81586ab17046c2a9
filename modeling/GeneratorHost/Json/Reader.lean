import GeneratorHost.Json.Basic
import GeneratorHost.Text.Class

/-! Reading JSON values from text. -/
namespace GeneratorHost.JsonValue

open Text

def isSpace (c : Char) : Bool := c = ' ' || c = '\n' || c = '\t' || c = '\r'

def skipSpace (cs : List Char) : List Char := cs.dropWhile isSpace

/-- A piece of a string: a character, or a 16-bit unit written as an escape. -/
inductive Piece where
  | char (c : Char)
  | unit (n : Nat)

/-- The character that a one-letter escape stands for. -/
def escaped? : Char → Option Char
  | '\x22' => some '\x22'
  | '\\' => some '\\'
  | '/' => some '/'
  | 'b' => some (Char.ofNat 8)
  | 'f' => some (Char.ofNat 12)
  | 'n' => some '\n'
  | 'r' => some '\r'
  | 't' => some '\t'
  | _ => none

/-- The value of four hexadecimal digits. -/
def unit? (a b c d : Char) : Option Nat :=
  if [a, b, c, d].all isHexDigit then
    some (([a, b, c, d].map hexValue).foldl (fun n digit => 16 * n + digit) 0)
  else none

/-- The pieces of a string from behind its opening quote, and what follows it. -/
def pieces? (done : List Piece) : List Char → Option (List Piece × List Char)
  | '\x22' :: cs => some (done.reverse, cs)
  | '\\' :: 'u' :: a :: b :: c :: d :: cs =>
    match unit? a b c d with
    | some n => pieces? (.unit n :: done) cs
    | none => none
  | '\\' :: e :: cs =>
    match escaped? e with
    | some c => pieces? (.char c :: done) cs
    | none => none
  | c :: cs => if c.toNat < 0x20 || c = '\\' then none else pieces? (.char c :: done) cs
  | [] => none

/-- The text of pieces; surrogates come in pairs. -/
def join? : List Piece → Option (List Char)
  | [] => some []
  | .char c :: rest => (join? rest).map (c :: ·)
  | .unit high :: rest =>
    if high < 0xd800 || 0xdfff < high then (join? rest).map (Char.ofNat high :: ·)
    else
      match rest with
      | .unit low :: rest =>
        if high < 0xdc00 && 0xdc00 ≤ low && low ≤ 0xdfff then
          (join? rest).map (Char.ofNat (0x10000 + (high - 0xd800) * 0x400 + (low - 0xdc00)) :: ·)
        else none
      | _ => none

/-- A string from behind its opening quote. -/
def string? (cs : List Char) : Option (JsonText × List Char) :=
  (pieces? [] cs).map fun (pieces, rest) => ((join? pieces).map String.ofList, rest)

/-- Takes digits, at least one. -/
def digits? (cs : List Char) : Option (List Char × List Char) :=
  let ds := cs.takeWhile Char.isDigit
  if ds.isEmpty then none else some (ds, cs.drop ds.length)

/-- Whole digits without a needless zero in front. -/
def whole? : List Char → Option (List Char × List Char)
  | '0' :: cs => if (digits? cs).isSome then none else some (['0'], cs)
  | cs => digits? cs

/-- The fraction of a number, if it has one. -/
def fraction? : List Char → Option (List Char × List Char)
  | '.' :: cs => (digits? cs).map fun (ds, rest) => ('.' :: ds, rest)
  | cs => some ([], cs)

/-- The exponent of a number, if it has one. -/
def exponent? : List Char → Option (List Char × List Char)
  | e :: cs =>
    if e = 'e' || e = 'E' then
      match cs with
      | sign :: ds =>
        if sign = '+' || sign = '-' then (digits? ds).map fun (ds, rest) => (e :: sign :: ds, rest)
        else (digits? cs).map fun (ds, rest) => (e :: ds, rest)
      | [] => none
    else some ([], e :: cs)
  | [] => some ([], [])

/-- A number's spelling. -/
def number? (cs : List Char) : Option (List Char × List Char) := do
  let (sign, cs) := match cs with
    | '-' :: rest => (['-'], rest)
    | _ => ([], cs)
  let (whole, cs) ← whole? cs
  let (fraction, cs) ← fraction? cs
  let (exponent, cs) ← exponent? cs
  return (sign ++ whole ++ fraction ++ exponent, cs)

mutual

/-- A value and what follows it. Every step inwards or onwards reads a character, which bounds the
number of steps. -/
def value? : Nat → List Char → Option (JsonValue × List Char)
  | 0, _ => none
  | fuel + 1, cs =>
    match skipSpace cs with
    | 'n' :: 'u' :: 'l' :: 'l' :: rest => some (.null, rest)
    | 't' :: 'r' :: 'u' :: 'e' :: rest => some (.bool true, rest)
    | 'f' :: 'a' :: 'l' :: 's' :: 'e' :: rest => some (.bool false, rest)
    | '\x22' :: rest => (string? rest).map fun (text, rest) => (.string text, rest)
    | '[' :: rest =>
      match skipSpace rest with
      | ']' :: rest => some (.array [], rest)
      | _ => (items? fuel [] rest).map fun (items, rest) => (.array items, rest)
    | '\x7b' :: rest =>
      match skipSpace rest with
      | '\x7d' :: rest => some (.object [], rest)
      | _ => (fields? fuel [] rest).map fun (fields, rest) => (.object fields, rest)
    | cs => (number? cs).map fun (spelling, rest) => (.number spelling, rest)

/-- Items separated by commas up to a closing bracket, behind those already read. -/
def items? : Nat → List JsonValue → List Char → Option (List JsonValue × List Char)
  | 0, _, _ => none
  | fuel + 1, done, cs =>
    match value? fuel cs with
    | some (item, rest) =>
      match skipSpace rest with
      | ',' :: rest => items? fuel (item :: done) rest
      | ']' :: rest => some ((item :: done).reverse, rest)
      | _ => none
    | none => none

/-- Fields separated by commas up to a closing brace, behind those already read. -/
def fields? : Nat → List (JsonText × JsonValue) → List Char →
    Option (List (JsonText × JsonValue) × List Char)
  | 0, _, _ => none
  | fuel + 1, done, cs =>
    match skipSpace cs with
    | '\x22' :: rest =>
      match string? rest with
      | some (key, rest) =>
        match skipSpace rest with
        | ':' :: rest =>
          match value? fuel rest with
          | some (item, rest) =>
            match skipSpace rest with
            | ',' :: rest => fields? fuel ((key, item) :: done) rest
            | '\x7d' :: rest => some (((key, item) :: done).reverse, rest)
            | _ => none
          | none => none
        | _ => none
      | none => none
    | _ => none

end

/-- The value that a text holds and nothing else. -/
def ofText? (s : String) : Option JsonValue :=
  match value? (2 * s.length + 2) s.toList with
  | some (v, rest) => if (skipSpace rest).isEmpty then some v else none
  | none => none

end GeneratorHost.JsonValue
