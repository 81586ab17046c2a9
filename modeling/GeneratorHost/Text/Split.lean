import GeneratorHost.Text.Class

/-! Cutting text at separators, lines and blanks. -/
namespace GeneratorHost.Text

/-- Drops blanks at the front of a text. -/
def trimFront (cs : List Char) : List Char := cs.dropWhile isBlank

/-- Drops blanks at both ends. -/
def trim (s : String) : String :=
  String.ofList (trimFront (trimFront s.toList).reverse).reverse

/-- Drops blanks at the end. -/
def trimEnd (s : String) : String := String.ofList (trimFront s.toList.reverse).reverse

/-- Pieces between the occurrences of a separator character. -/
def splitChar (separator : Char) : List Char → List (List Char)
  | [] => [[]]
  | c :: cs =>
    if c = separator then [] :: splitChar separator cs
    else match splitChar separator cs with
      | piece :: pieces => (c :: piece) :: pieces
      | [] => [[c]]

/-- Drops a carriage return at the end. -/
def dropCarriage (cs : List Char) : List Char :=
  if cs.getLast? = some '\r' then cs.dropLast else cs

/-- The lines of a text without their ends; a text that ends a line has no further one. -/
def lines (s : String) : List String :=
  let pieces := splitChar '\n' s.toList
  let pieces := if pieces.getLast? = some [] then pieces.dropLast else pieces
  -- Only a line feed makes the carriage return before it part of the line's end.
  let ended := if s.toList.getLast? = some '\n' then pieces.length else pieces.length - 1
  (pieces.zipIdx.map fun (cs, i) => if i < ended then dropCarriage cs else cs).map String.ofList

/-- Pieces between double colons. -/
def splitColons : List Char → List (List Char)
  | ':' :: ':' :: cs => [] :: splitColons cs
  | c :: cs =>
    match splitColons cs with
    | piece :: pieces => (c :: piece) :: pieces
    | [] => [[c]]
  | [] => [[]]

/-- What stands before and behind the last double colon. -/
def cutLastColons : List Char → Option (List Char × List Char)
  | [] => none
  | c :: cs =>
    match cutLastColons cs with
    | some (before, behind) => some (c :: before, behind)
    | none =>
      match c, cs with
      | ':', ':' :: behind => some ([], behind)
      | _, _ => none

/-- Number of bytes of a text's encoding. -/
def byteCount : List Char → Nat
  | [] => 0
  | c :: cs => c.utf8Size + byteCount cs

/-- The characters from a byte offset on; nothing where the offset is inside a character or behind
the end. -/
def dropBytes? : Nat → List Char → Option (List Char)
  | 0, cs => some cs
  | _ + 1, [] => none
  | n + 1, c :: cs => if c.utf8Size ≤ n + 1 then dropBytes? (n + 1 - c.utf8Size) cs else none

/-- The first `n` bytes; nothing where the last of them is inside a character or behind the end. -/
def takeBytes? : Nat → List Char → Option (List Char)
  | 0, _ => some []
  | _ + 1, [] => none
  | n + 1, c :: cs =>
    if c.utf8Size ≤ n + 1 then (takeBytes? (n + 1 - c.utf8Size) cs).map (c :: ·) else none

/-- Whether a text occurs in another. -/
def occursIn (part : List Char) : List Char → Bool
  | [] => part.isEmpty
  | c :: cs => part.isPrefixOf (c :: cs) || occursIn part cs

end GeneratorHost.Text
