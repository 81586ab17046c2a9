import GeneratorHost.Text.Position

/-! Token trees: names, punctuation, literals and delimited groups. -/
namespace GeneratorHost

inductive Delimiter where
  | parenthesis
  | bracket
  | brace
deriving DecidableEq, Repr

/-- A token tree with the stretch of text it was read from. A punctuation character is joint when
the next character is punctuation too; a literal keeps its spelling. -/
inductive Token where
  | ident (raw : Bool) (name : String) (extent : Extent)
  | punct (char : Char) (joint : Bool) (extent : Extent)
  | literal (spelling : String) (extent : Extent)
  | group (delimiter : Delimiter) (content : List Token) (extent : Extent)
deriving Repr

namespace Token

instance : Inhabited Token := ⟨.literal "" default⟩

def extent : Token → Extent
  | .ident _ _ e | .punct _ _ e | .literal _ e | .group _ _ e => e

mutual

/-- Number of tokens in a tree, a group counting itself and its content. -/
def size : Token → Nat
  | .group _ content _ => 1 + sizeAll content
  | _ => 1

def sizeAll : List Token → Nat
  | [] => 0
  | t :: ts => t.size + sizeAll ts

end

/-- The stretch from the first to the last of some tokens; none have the origin. -/
def span : List Token → Extent
  | [] => default
  | t :: ts => ⟨t.extent.start, ((t :: ts).getLast (List.cons_ne_nil t ts)).extent.stop⟩

/-- Generated punctuation: all characters but the last are joint. -/
def mark : List Char → List Token
  | [] => []
  | [c] => [.punct c false default]
  | c :: cs => .punct c true default :: mark cs

/-- A generated name. -/
def word (name : String) : Token := .ident false name default

end Token
end GeneratorHost
