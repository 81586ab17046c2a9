import GeneratorHost.Token.Basic
import GeneratorHost.Token.Literal
import GeneratorHost.Text.Escaped

/-! Reading token trees from text. Comments and blanks separate tokens; a documentation comment
reads as the attribute that states its text. -/
namespace GeneratorHost.Token

open Text

/-- The unread text and its place. -/
structure Cursor where
  rest : List Char
  place : Position

namespace Cursor

/-- Steps over `n` characters. -/
def advance : Nat → Cursor → Cursor
  | 0, c => c
  | n + 1, ⟨x :: xs, p⟩ => advance n ⟨xs, p.after x⟩
  | _ + 1, ⟨[], p⟩ => ⟨[], p⟩

end Cursor

/-- Length of a line up to its end, a carriage return before the line feed not counted. -/
def lineLength (n : Nat) : List Char → Nat
  | [] => n
  | '\n' :: _ => n
  | '\r' :: '\n' :: _ => n
  | _ :: cs => lineLength (n + 1) cs

/-- Length of a line comment with the carriage return that ends it. -/
def lineCommentLength (cs : List Char) : Nat :=
  let n := lineLength 0 cs
  match cs.drop n with
  | '\r' :: _ => n + 1
  | _ => n

/-- Length of a block comment with `depth` levels open; comments nest. -/
def blockLength (depth n : Nat) : List Char → Option Nat
  | '/' :: '*' :: cs => blockLength (depth + 1) (n + 2) cs
  | '*' :: '/' :: cs => if depth ≤ 1 then some (n + 2) else blockLength (depth - 1) (n + 2) cs
  | _ :: cs => blockLength depth (n + 1) cs
  | [] => none

/-- Length of the block comment at the front. -/
def blockCommentLength : List Char → Option Nat
  | '/' :: '*' :: cs => blockLength 1 2 cs
  | _ => none

/-- Blanks between tokens: white space and the two direction marks. -/
def separates (c : Char) : Bool :=
  isBlank c || c.toNat = 0x200e || c.toNat = 0x200f

/-- Length of the blank or plain comment at the front, zero if there is none. -/
def blankLength : List Char → Nat
  | '/' :: '/' :: '/' :: '/' :: cs => lineCommentLength ('/' :: '/' :: '/' :: '/' :: cs)
  | '/' :: '/' :: '/' :: _ => 0
  | '/' :: '/' :: '!' :: _ => 0
  | '/' :: '/' :: cs => lineCommentLength ('/' :: '/' :: cs)
  | '/' :: '*' :: '*' :: '/' :: _ => 4
  | '/' :: '*' :: '*' :: '*' :: cs => (blockCommentLength ('/' :: '*' :: '*' :: '*' :: cs)).getD 0
  | '/' :: '*' :: '*' :: _ => 0
  | '/' :: '*' :: '!' :: _ => 0
  | '/' :: '*' :: cs => (blockCommentLength ('/' :: '*' :: cs)).getD 0
  | c :: _ => if separates c then 1 else 0
  | [] => 0

/-- Skips blanks and plain comments, at most `fuel` of them. -/
def skipBlanks : Nat → Cursor → Cursor
  | 0, c => c
  | fuel + 1, c =>
    match blankLength c.rest with
    | 0 => c
    | n + 1 => skipBlanks fuel (c.advance (n + 1))

/-- A documentation comment: its length, its text, and whether it documents what encloses it. -/
def docComment? : List Char → Option (Nat × List Char × Bool)
  | '/' :: '/' :: '!' :: cs =>
    some (3 + lineCommentLength cs, cs.take (lineLength 0 cs), true)
  | '/' :: '*' :: '!' :: cs =>
    (blockLength 1 2 ('!' :: cs)).map fun n => (n, cs.take (n - 5), true)
  | '/' :: '/' :: '/' :: cs =>
    match cs with
    | '/' :: _ => none
    | _ => some (3 + lineCommentLength cs, cs.take (lineLength 0 cs), false)
  | '/' :: '*' :: '*' :: cs =>
    match cs with
    | '*' :: _ => none
    | _ => (blockLength 1 2 ('*' :: cs)).map fun n => (n, cs.take (n - 5), false)
  | _ => none

/-- Whether every carriage return stands before a line feed. -/
def carriagesEndLines : List Char → Bool
  | '\r' :: '\n' :: cs => carriagesEndLines cs
  | '\r' :: _ => false
  | _ :: cs => carriagesEndLines cs
  | [] => true

/-- The attribute a documentation comment stands for. -/
def docAttribute (comment : List Char) (inner : Bool) (extent : Extent) : List Token :=
  let content := [.ident false "doc" extent, .punct '=' false extent,
    .literal (quotedLiteral comment) extent]
  .punct '#' false extent :: (if inner then [.punct '!' false extent] else []) ++
    [.group .bracket content extent]

/-- Punctuation at the front; a slash that begins a comment is none. -/
def punctuation? : List Char → Option Char
  | '/' :: '/' :: _ => none
  | '/' :: '*' :: _ => none
  | c :: _ => if "~!@#$%^&*-=+|;:,<.>/?'".toList.contains c then some c else none
  | [] => none

/-- Names that cannot be written raw. -/
def neverRaw (name : List Char) : Bool :=
  ["_", "super", "self", "Self", "crate"].contains (String.ofList name)

/-- Length of the raw or plain name at the front. -/
def anyNameLength : List Char → Option Nat
  | 'r' :: '#' :: cs =>
    let n := nameLength cs
    if n = 0 || neverRaw (cs.take n) then none else some (n + 2)
  | cs => if nameLength cs = 0 then none else some (nameLength cs)

/-- Openings of literals that are no names even where the literal is broken. -/
def literalOpenings : List (List Char) :=
  ["r\"", "r#\"", "r##", "b\"", "b'", "br\"", "br#", "c\"", "cr\"", "cr#"].map String.toList

/-- Length of the name at the front, where no literal begins. -/
def identifierLength (cs : List Char) : Option Nat :=
  if literalOpenings.any (·.isPrefixOf cs) then none else anyNameLength cs

/-- A stand-in that prints in place of tokens that could not be made. -/
def errorMark : List Char := "(/*ERROR*/)".toList

/-- An apostrophe begins a lifetime if a name follows that no quote ends. -/
def lifetimeFollows (cs : List Char) : Bool :=
  match anyNameLength cs with
  | none => false
  | some n =>
    match cs.drop n with
    | c :: _ => !(c = apostrophe || (c = '#' && !"r#".toList.isPrefixOf cs))
    | [] => true

/-- A token other than a group: how many characters it takes and how it is made from its extent. -/
def leaf? (cs : List Char) : Option (Nat × (Extent → Token)) :=
  match literalLength cs with
  | some n => some (n, .literal (String.ofList (cs.take n)))
  | none =>
    match punctuation? cs with
    | some c =>
      if c = apostrophe then
        if lifetimeFollows (cs.drop 1) then some (1, .punct c true)
        else none
      else some (1, .punct c (punctuation? (cs.drop 1)).isSome)
    | none =>
      match identifierLength cs with
      | some n =>
        if "r#".toList.isPrefixOf cs then some (n, .ident true (String.ofList ((cs.take n).drop 2)))
        else some (n, .ident false (String.ofList (cs.take n)))
      | none =>
        if errorMark.isPrefixOf cs then
          some (errorMark.length, .literal (String.ofList errorMark))
        else none

def opens (cs : List Char) : Option Delimiter :=
  match cs with
  | '(' :: _ => if errorMark.isPrefixOf cs then none else some .parenthesis
  | '[' :: _ => some .bracket
  | '\x7b' :: _ => some .brace
  | _ => none

def closes : List Char → Option Delimiter
  | ')' :: _ => some .parenthesis
  | ']' :: _ => some .bracket
  | '\x7d' :: _ => some .brace
  | _ => none

/-- A group whose end is not reached yet: its delimiter, its start and what came before it,
latest first. -/
structure Frame where
  delimiter : Delimiter
  start : Position
  before : List Token

/-- Reads tokens to the end of the text; `done` holds those of the innermost open group, latest
first. Every round reads at least one character, so the length of the text is fuel enough. -/
def readAll : Nat → List Frame → List Token → Cursor → Option (List Token)
  | 0, _, _, _ => none
  | fuel + 1, frames, done, cursor =>
    let c := skipBlanks fuel cursor
    match docComment? c.rest with
    | some (n, comment, inner) =>
      if carriagesEndLines comment then
        let next := c.advance n
        readAll fuel frames ((docAttribute comment inner ⟨c.place, next.place⟩).reverse ++ done) next
      else none
    | none =>
      if c.rest.isEmpty then
        if frames.isEmpty then some done.reverse else none
      else
        match opens c.rest, closes c.rest with
        | some delimiter, _ => readAll fuel (⟨delimiter, c.place, done⟩ :: frames) [] (c.advance 1)
        | none, some delimiter =>
          match frames with
          | frame :: outer =>
            if frame.delimiter = delimiter then
              let next := c.advance 1
              readAll fuel outer
                (.group delimiter done.reverse ⟨frame.start, next.place⟩ :: frame.before) next
            else none
          | [] => none
        | none, none =>
          match leaf? c.rest with
          | some (n, token) =>
            let next := c.advance n
            readAll fuel frames (token ⟨c.place, next.place⟩ :: done) next
          | none => none

/-- The tokens of a text, or nothing if it has a broken token or group. A byte order mark at its
front is skipped. -/
def ofChars? (cs : List Char) : Option (List Token) :=
  let start : Cursor := ⟨cs, .origin⟩
  let start := match cs with
    | c :: _ => if c.toNat = 0xfeff then start.advance 1 else start
    | [] => start
  readAll (cs.length + 2) [] [] start

def ofText? (s : String) : Option (List Token) := ofChars? s.toList

end GeneratorHost.Token
