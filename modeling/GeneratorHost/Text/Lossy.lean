/-! Reading bytes as text; what is no character reads as the replacement character. -/
namespace GeneratorHost.Text

def replacement : Char := Char.ofNat 0xfffd

/-- How many continuation bytes a first byte asks for, and which second bytes may follow it. -/
def sequence? (b : Nat) : Option (Nat × Nat × Nat) :=
  if 0xc2 ≤ b && b ≤ 0xdf then some (1, 0x80, 0xbf)
  else if b = 0xe0 then some (2, 0xa0, 0xbf)
  else if b = 0xed then some (2, 0x80, 0x9f)
  else if 0xe1 ≤ b && b ≤ 0xef then some (2, 0x80, 0xbf)
  else if b = 0xf0 then some (3, 0x90, 0xbf)
  else if 0xf1 ≤ b && b ≤ 0xf3 then some (3, 0x80, 0xbf)
  else if b = 0xf4 then some (3, 0x80, 0x8f)
  else none

/-- The bits that a first byte contributes. -/
def leadBits (b continuations : Nat) : Nat :=
  match continuations with
  | 1 => b % 0x20
  | 2 => b % 0x10
  | _ => b % 0x08

/-- Reads bytes from the middle of a character: `need` bytes are still to come, the next of them
between `low` and `high`, and `point` is what was read of it. A sequence that breaks off is one
replacement character, and the byte that broke it begins anew. -/
def decodeFrom (need low high point : Nat) : List UInt8 → List Char
  | [] => if need = 0 then [] else [replacement]
  | byte :: rest =>
    let b := byte.toNat
    if need ≠ 0 && low ≤ b && b ≤ high then
      let point := 64 * point + b % 64
      if need = 1 then Char.ofNat point :: decodeFrom 0 0 0 0 rest
      else decodeFrom (need - 1) 0x80 0xbf point rest
    else
      let broken := if need = 0 then [] else [replacement]
      if b < 0x80 then broken ++ Char.ofNat b :: decodeFrom 0 0 0 0 rest
      else
        match sequence? b with
        | some (more, low, high) => broken ++ decodeFrom more low high (leadBits b more) rest
        | none => broken ++ replacement :: decodeFrom 0 0 0 0 rest

/-- The text of some bytes, with one replacement character for each broken sequence. -/
def lossy (bytes : List UInt8) : String := String.ofList (decodeFrom 0 0 0 0 bytes)

/-- Whether bytes are the encoding of a text, which is the case if reading drops nothing. -/
def ofBytes? (bytes : List UInt8) : Option String :=
  String.fromUTF8? ⟨bytes.toArray⟩

/-- The encoding of a text. -/
def bytes (s : String) : List UInt8 := s.toUTF8.toList

end GeneratorHost.Text
