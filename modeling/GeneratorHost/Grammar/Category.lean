import GeneratorHost.Grammar.Reader

/-! The recursive categories of the grammar. A production reads its parts through a `Grammar`, the
productions of all categories one level deeper. -/
namespace GeneratorHost

/-- Binding strength of binary operators, weakest first. -/
inductive Precedence where
  | jump
  | assign
  | range
  | or
  | and
  | condition
  | compare
  | bitOr
  | bitXor
  | bitAnd
  | shift
  | sum
  | product
  | cast
deriving DecidableEq

namespace Precedence

def rank : Precedence → Nat
  | jump => 0
  | assign => 1
  | range => 2
  | or => 3
  | and => 4
  | condition => 5
  | compare => 6
  | bitOr => 7
  | bitXor => 8
  | bitAnd => 9
  | shift => 10
  | sum => 11
  | product => 12
  | cast => 13

end Precedence

/-- Forms of expression that decide what may follow. -/
inductive ExpressionShape where
  | range
  | comparison
  /-- Control flow and blocks, which end a statement without a semicolon. -/
  | block
  | call (delimiter : Delimiter)
  | other
deriving DecidableEq

/-- A path with generic arguments: whether no segment has any, and whether the last has. -/
structure PathShape where
  path : Path
  plain : Bool
  bare : Bool
  /-- The last segment has its arguments in parentheses. -/
  applied : Bool := false

/-- Forms of type that decide what may follow. -/
inductive TypeShape where
  | path (qualified : Bool) (shape : PathShape)
  | parenthesized (inner? : Option Path)
  /-- Bounds without `dyn`, with their number and whether a plus sign ends them. -/
  | bounds (count : Nat) (trailing : Bool)
  | other

namespace TypeShape

/-- The path of a type that is plainly one, seen through parentheses. -/
def path? : TypeShape → Option Path
  | .path false shape => some shape.path
  | .parenthesized inner? => inner?
  | _ => none

end TypeShape

inductive PatternShape where
  | rest
  | openRange
  | other
deriving DecidableEq

inductive BoundShape where
  | trait (path : Path)
  | lifetime
  | capture
  | verbatim

/-- A recursive category with the context that its production depends on. -/
inductive Category where
  /-- An expression; where struct literals are not allowed a brace ends it. -/
  | expression (structs : Bool)
  | unary (structs : Bool)
  /-- An expression at the start of a statement or arm, which ends behind control flow. -/
  | early
  /-- The operators behind an operand that bind at least as strongly as the base. -/
  | operators (structs : Bool) (left : ExpressionShape) (base : Precedence)
  /-- A type; where plus signs are not allowed it is a single bound. -/
  | type (plus : Bool)
  | pattern
  /-- A bound; argument capture and constness are allowed by context. -/
  | bound (capture const : Bool)
  | statements
  | item
  | useTree (root : Bool)
  | namedFields

/-- What a category's production tells about what it read. -/
abbrev Category.Result : Category → Type
  | .expression _ | .unary _ | .early | .operators .. => ExpressionShape
  | .type _ => TypeShape
  | .pattern => PatternShape
  | .bound .. => BoundShape
  | .statements | .item | .namedFields => Unit
  | .useTree _ => Option UseTree

/-- The productions of all categories. -/
abbrev Grammar := (c : Category) → Reader c.Result

end GeneratorHost
