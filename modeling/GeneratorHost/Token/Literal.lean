import GeneratorHost.Text.Class

/-! Lengths of names and literals at the front of a text. Every function answers the number of
characters matched, or nothing when the text does not begin that way. -/
namespace GeneratorHost.Token

open Text

def apostrophe : Char := Char.ofNat 39

def quotation : Char := Char.ofNat 34

def backslash : Char := Char.ofNat 92

/-- Length of the name at the front, zero if there is none. -/
def nameLength : List Char → Nat
  | [] => 0
  | c :: cs => if startsIdentifier c then 1 + (cs.takeWhile continuesIdentifier).length else 0

/-- What a quoted literal may hold. -/
inductive Quoted where
  | text
  | bytes
  | cText
deriving DecidableEq

namespace Quoted

/-- Characters allowed as they are. -/
def admits : Quoted → Char → Bool
  | .text, _ => true
  | .bytes, c => c.toNat < 128
  | .cText, c => c ≠ Char.ofNat 0

/-- One-letter escapes. -/
def escapes (q : Quoted) (c : Char) : Bool :=
  c = 'n' || c = 'r' || c = 't' || c = backslash || c = apostrophe || c = quotation ||
    (c = '0' && q ≠ .cText)

/-- Two-digit escapes: text is limited to ASCII, and a C text holds no zero. -/
def hexEscapes (q : Quoted) (high low : Char) : Bool :=
  isHexDigit high && isHexDigit low &&
    match q with
    | .text => '0' ≤ high && high ≤ '7'
    | .bytes => true
    | .cText => high ≠ '0' || low ≠ '0'

/-- The value of a code point escape must be a character, in a C text not the zero. -/
def admitsPoint (q : Quoted) (n : Nat) : Bool :=
  (n < 0xd800 || (0xdfff < n && n < 0x110000)) && (q ≠ .cText || n ≠ 0)

end Quoted

/-- Where a scan stands inside a quoted literal. -/
inductive QuotedState where
  | plain
  /-- After an escaped line end, skipping blanks; true right after a carriage return. -/
  | joining (carriage : Bool)
  /-- Inside a code point escape, with the count and value of its digits. -/
  | point (digits value : Nat)

/-- Length of a literal from behind its opening quote, suffix included; `n` counts what was read. -/
def quotedLength (q : Quoted) : QuotedState → Nat → List Char → Option Nat
  | _, _, [] => none
  | .joining true, n, c :: cs => if c = '\n' then quotedLength q (.joining false) (n + 1) cs else none
  | .point digits value, n, c :: cs =>
    if isHexDigit c then
      if digits = 6 then none
      else quotedLength q (.point (digits + 1) (16 * value + hexValue c)) (n + 1) cs
    else if c = '_' && 0 < digits then quotedLength q (.point digits value) (n + 1) cs
    else if c = '\x7d' && 0 < digits && q.admitsPoint value then quotedLength q .plain (n + 1) cs
    else none
  | state, n, c :: cs =>
    let skips := match state with
      | .joining _ => c = ' ' || c = '\t' || c = '\n' || c = '\r'
      | _ => false
    if skips then quotedLength q (.joining (c = '\r')) (n + 1) cs
    else if c = quotation then some (n + 1 + nameLength cs)
    else if c = '\r' then
      match cs with
      | '\n' :: rest => quotedLength q .plain (n + 2) rest
      | _ => none
    else if c = backslash then
      match cs with
      | 'x' :: high :: low :: rest =>
        if q.hexEscapes high low then quotedLength q .plain (n + 4) rest else none
      | 'u' :: '\x7b' :: rest => if q = .bytes then none else quotedLength q (.point 0 0) (n + 3) rest
      | '\n' :: rest => quotedLength q (.joining false) (n + 2) rest
      | '\r' :: rest => quotedLength q (.joining true) (n + 2) rest
      | e :: rest => if q.escapes e then quotedLength q .plain (n + 2) rest else none
      | [] => none
    else if q.admits c then quotedLength q .plain (n + 1) cs
    else none

/-- Length of a raw literal from behind its opening quote, closed by a quote and `hashes` marks. -/
def rawLength (q : Quoted) (hashes n : Nat) : List Char → Option Nat
  | [] => none
  | c :: cs =>
    if c = quotation && (cs.take hashes).length = hashes && (cs.take hashes).all (· = '#') then
      some (n + 1 + hashes + nameLength (cs.drop hashes))
    else if c = '\r' then
      match cs with
      | '\n' :: rest => rawLength q hashes (n + 2) rest
      | _ => none
    else if q.admits c then rawLength q hashes (n + 1) cs
    else none

/-- Length of a raw literal from behind its letters: marks, a quote and the text. -/
def rawOpening (q : Quoted) (n : Nat) (cs : List Char) : Option Nat :=
  let hashes := (cs.takeWhile (· = '#')).length
  match cs.drop hashes with
  | c :: rest => if c = quotation && hashes ≤ 255 then rawLength q hashes (n + hashes + 1) rest else none
  | [] => none

def textLength : List Char → Option Nat
  | '\x22' :: cs => quotedLength .text .plain 1 cs
  | 'r' :: cs => rawOpening .text 1 cs
  | _ => none

def byteTextLength : List Char → Option Nat
  | 'b' :: '\x22' :: cs => quotedLength .bytes .plain 2 cs
  | 'b' :: 'r' :: cs => rawOpening .bytes 2 cs
  | _ => none

def cTextLength : List Char → Option Nat
  | 'c' :: '\x22' :: cs => quotedLength .cText .plain 2 cs
  | 'c' :: 'r' :: cs => rawOpening .cText 2 cs
  | _ => none

/-- Closing quote and suffix of a single character. -/
def closing (n : Nat) : List Char → Option Nat
  | c :: cs => if c = apostrophe then some (n + 1 + nameLength cs) else none
  | [] => none

/-- Digits of a code point escape and the quote behind it. -/
def pointClosing (digits value n : Nat) : List Char → Option Nat
  | [] => none
  | c :: cs =>
    if isHexDigit c then
      if digits = 6 then none else pointClosing (digits + 1) (16 * value + hexValue c) (n + 1) cs
    else if c = '_' && 0 < digits then pointClosing digits value (n + 1) cs
    else if c = '\x7d' && 0 < digits && Quoted.text.admitsPoint value then closing (n + 1) cs
    else none

/-- Length of a character or byte literal from behind its opening quote. -/
def singleLength (q : Quoted) (n : Nat) : List Char → Option Nat
  | [] => none
  | c :: cs =>
    if c = backslash then
      match cs with
      | 'x' :: high :: low :: rest => if q.hexEscapes high low then closing (n + 4) rest else none
      | 'u' :: '\x7b' :: rest => if q = .bytes then none else pointClosing 0 0 (n + 3) rest
      | e :: rest => if q.escapes e then closing (n + 2) rest else none
      | [] => none
    else if q.admits c then closing (n + 1) cs
    else none

def byteLength : List Char → Option Nat
  | 'b' :: c :: cs => if c = apostrophe then singleLength .bytes 2 cs else none
  | _ => none

def characterLength : List Char → Option Nat
  | c :: cs => if c = apostrophe then singleLength .text 1 cs else none
  | [] => none

/-- What was read of a number up to its exponent mark. -/
structure Mantissa where
  length : Nat
  dotted : Bool
  /-- The text behind an exponent mark. -/
  exponent? : Option (List Char)

/-- Digits, at most one point and an exponent mark. A point before another point or a name is not
part of a number, and the number is then no decimal fraction. -/
def mantissa (dotted : Bool) (n : Nat) : List Char → Option Mantissa
  | [] => some ⟨n, dotted, none⟩
  | c :: cs =>
    if c.isDigit || c = '_' then mantissa dotted (n + 1) cs
    else if c = '.' then
      if dotted then some ⟨n, dotted, none⟩
      else match cs with
        | d :: _ => if d = '.' || startsIdentifier d then none else mantissa true (n + 1) cs
        | [] => mantissa true (n + 1) cs
    else if c = 'e' || c = 'E' then some ⟨n + 1, dotted, some cs⟩
    else some ⟨n, dotted, none⟩

/-- Length with sign and digits of an exponent; `before` is the answer when the mark turns out to
begin a suffix. -/
def exponentLength (before : Option Nat) (signed valued : Bool) (n : Nat) : List Char → Option Nat
  | [] => if valued then some n else before
  | c :: cs =>
    if c = '+' || c = '-' then
      if valued then some n
      else if signed then before
      else exponentLength before true valued (n + 1) cs
    else if c.isDigit then exponentLength before signed true (n + 1) cs
    else if c = '_' then exponentLength before signed valued (n + 1) cs
    else if valued then some n
    else before

/-- Length of the digits of a decimal fraction, with a point or an exponent. -/
def fractionDigits : List Char → Option Nat
  | [] => none
  | c :: cs =>
    if c.isDigit then
      match mantissa false 1 cs with
      | none => none
      | some m =>
        match m.exponent? with
        | some rest => exponentLength (if m.dotted then some (m.length - 1) else none) false false m.length rest
        | none => if m.dotted then some m.length else none
    else none

/-- Length of the digits of a whole number behind its base mark. -/
def wholeDigits (base : Nat) (empty : Bool) (n : Nat) : List Char → Option Nat
  | [] => if empty then none else some n
  | c :: cs =>
    if c.isDigit then
      if base ≤ hexValue c then none else wholeDigits base false (n + 1) cs
    else if isHexDigit c then
      if base ≤ hexValue c then (if empty then none else some n)
      else wholeDigits base false (n + 1) cs
    else if c = '_' then
      if empty && base = 10 then none else wholeDigits base empty (n + 1) cs
    else if empty then none
    else some n

def wholeLength : List Char → Option Nat
  | '0' :: 'x' :: cs => wholeDigits 16 true 2 cs
  | '0' :: 'o' :: cs => wholeDigits 8 true 2 cs
  | '0' :: 'b' :: cs => wholeDigits 2 true 2 cs
  | cs => wholeDigits 10 true 0 cs

/-- Adds the suffix of a number; a number ends where no identifier can go on. -/
def suffixed (cs : List Char) (n : Nat) : Option Nat :=
  let n := n + nameLength (cs.drop n)
  match cs.drop n with
  | c :: _ => if continuesIdentifier c then none else some n
  | [] => some n

def numberLength (cs : List Char) : Option Nat :=
  match (fractionDigits cs).bind (suffixed cs) with
  | some n => some n
  | none => (wholeLength cs).bind (suffixed cs)

/-- Length of the literal at the front. -/
def literalLength (cs : List Char) : Option Nat :=
  (textLength cs).orElse fun _ => (byteTextLength cs).orElse fun _ => (cTextLength cs).orElse fun _ =>
    (byteLength cs).orElse fun _ => (characterLength cs).orElse fun _ => numberLength cs

end GeneratorHost.Token
