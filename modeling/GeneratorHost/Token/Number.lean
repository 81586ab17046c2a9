import GeneratorHost.Token.Literal

/-! Values of number literals. -/
namespace GeneratorHost.Token

open Text

/-- Whether a nonempty text has the form of an identifier. -/
def isName : List Char → Bool
  | [] => false
  | c :: cs => startsIdentifier c && cs.all continuesIdentifier

/-- Whether the text behind an exponent mark makes the number a fraction. -/
def isExponent (valued : Bool) : List Char → Bool
  | [] => valued
  | c :: cs =>
    if c = '_' then isExponent valued cs
    else if c = '-' || c = '+' then true
    else if c.isDigit then isExponent true cs
    else valued && isName (c :: cs)

/-- Value and suffix of a whole number from its digits on; nothing for a fraction. -/
def wholeFrom (base value : Nat) (digits : Bool) : List Char → Option (Nat × List Char)
  | [] => if digits then some (value, []) else none
  | c :: cs =>
    let suffix := if digits && isName (c :: cs) then some (value, c :: cs) else none
    if c.isDigit || (base = 16 && isHexDigit c) then
      if base ≤ hexValue c then none else wholeFrom base (base * value + hexValue c) true cs
    else if c = '_' then wholeFrom base value digits cs
    else if base = 10 && c = '.' then none
    else if base = 10 && (c = 'e' || c = 'E') && isExponent false cs then none
    else suffix

/-- Value and suffix of a literal that spells a whole number. -/
def wholeValue? : List Char → Option (Nat × List Char)
  | '0' :: 'x' :: cs => wholeFrom 16 0 false cs
  | '0' :: 'o' :: cs => wholeFrom 8 0 false cs
  | '0' :: 'b' :: cs => wholeFrom 2 0 false cs
  | c :: cs => if c.isDigit then wholeFrom 10 0 false (c :: cs) else none
  | [] => none

/-- The positions of fields without a name are below this number. -/
def indexLimit : Nat := 4294967296

/-- Kinds of number a literal spells; other literals spell none. -/
inductive NumberKind where
  | whole
  | fraction
deriving DecidableEq

def numberKind? (cs : List Char) : Option NumberKind :=
  match cs with
  | c :: _ =>
    if c.isDigit then some (if (wholeValue? cs).isSome then .whole else .fraction) else none
  | [] => none

end GeneratorHost.Token
