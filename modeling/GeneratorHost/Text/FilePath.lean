import GeneratorHost.Text.Split

/-! File paths by their parts. Repeated separators and dots inside a path are no parts. -/
namespace GeneratorHost

/-- A part of a file path; only a relative path can begin with the current directory. -/
inductive PathPart where
  | root
  | current
  | up
  | name (chars : List Char)
deriving DecidableEq, Repr

namespace PathPart

def chars : PathPart → List Char
  | root => ['/']
  | current => ['.']
  | up => ['.', '.']
  | name cs => cs

/-- The order of kinds of parts; names are ordered by their characters. -/
def rank : PathPart → Nat
  | root => 0
  | current => 1
  | up => 2
  | name _ => 3

def ofPiece (piece : List Char) : PathPart := if piece = ['.', '.'] then up else name piece

end PathPart

/-- The parts of a file path. -/
abbrev FilePath := List PathPart

namespace FilePath

/-- Whether a piece between separators is no part where it stands behind others. -/
def isSkipped (piece : List Char) : Bool := piece.isEmpty || piece = ['.']

/-- The parts that pieces behind the first one make. -/
def parts (pieces : List (List Char)) : FilePath :=
  (pieces.filter fun piece => !isSkipped piece).map .ofPiece

def ofText (path : String) : FilePath :=
  match Text.splitChar '/' path.toList with
  | [] => []
  | [] :: rest => if rest.isEmpty then [] else .root :: parts rest
  | ['.'] :: rest => .current :: parts rest
  | first :: rest => .ofPiece first :: parts rest

def isAbsolute (path : String) : Bool := path.startsWith "/"

/-- Whether a path ends in the parts of another. -/
def endsWith (p suffix : FilePath) : Bool := suffix.isSuffixOf p

/-- The parts of a path that are names. -/
def names (p : FilePath) : FilePath :=
  p.filter fun
    | .name _ => true
    | _ => false

/-- The order of paths part by part. -/
def lessOrEqual : FilePath → FilePath → Bool
  | [], _ => true
  | _ :: _, [] => false
  | a :: as, b :: bs =>
    if a = b then lessOrEqual as bs
    else if a.rank = b.rank then String.ofList a.chars < String.ofList b.chars
    else a.rank < b.rank

/-- The text of a path behind a directory; an absolute path replaces it. -/
def join (directory path : String) : String :=
  if isAbsolute path || directory = "" then path
  else if directory.endsWith "/" then directory ++ path
  else directory ++ "/" ++ path

/-- Drops pieces at the end of a path that are no parts; the first piece stays. -/
def dropSkipped : List (List Char) → List (List Char)
  | [] => []
  | [first] => [first]
  | piece :: rest => if isSkipped piece then dropSkipped rest else piece :: rest

/-- The text of the directory a path is in; a root and an empty path are in none. -/
def parent? (path : String) : Option String :=
  let slashed := isAbsolute path
  let join (reversed : List (List Char)) : String :=
    "/".intercalate (reversed.reverse.map String.ofList)
  match dropSkipped (Text.splitChar '/' path.toList).reverse with
  | [] => none
  | [first] => if slashed || first.isEmpty then none else some ""
  | _ :: before =>
    match dropSkipped before with
    | [[]] => if slashed then some "/" else some ""
    | kept => some (join kept)

/-- The name at the end of a path. -/
def fileName? (path : String) : Option (List Char) :=
  match (ofText path).getLast? with
  | some (.name cs) => some cs
  | _ => none

/-- What stands behind the last dot of a file name that does not begin with it. -/
def extension? (name : List Char) : Option (List Char) :=
  let extension := (name.reverse.takeWhile (· ≠ '.')).reverse
  if extension.length + 1 < name.length then some extension else none

end FilePath
end GeneratorHost
