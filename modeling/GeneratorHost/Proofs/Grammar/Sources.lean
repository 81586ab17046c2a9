import GeneratorHost.Grammar.Parse
import GeneratorHost.Proofs.Grammar.Reader
import GeneratorHost.Proofs.Grammar.WellFormed

/-! The tokens that declarations are read from. -/
namespace GeneratorHost

/-- Productions that read one declaration. -/
inductive Grammar.Declaring : Reader Unit → Prop
  | item (depth : Nat) : Declaring (item (grammar depth))
  | traitMember (depth : Nat) : Declaring (traitMember (grammar depth))
  | implMember (depth : Nat) : Declaring (implMember (grammar depth))
  | foreignMember (depth : Nat) : Declaring (foreignMember (grammar depth))
  | namedField (depth : Nat) : Declaring (namedField (grammar depth))
  | tupleField (depth : Nat) : Declaring (tupleField (grammar depth))
  | variant (depth : Nat) : Declaring (variant (grammar depth))

namespace Declaration

/-- A production reads some tokens of a text as a declaration. A visibility in front of a variant does not belong to
it. -/
inductive ReadFrom (tokens own : List Token) (d : Declaration) : Prop
  | all {p : Reader Unit} {s s' : ReaderState} (production : Grammar.Declaring p) (run : p s = some ((), s'))
      (within : Token.Within tokens s.rest) (rest : s.rest = own ++ s'.rest) (found : s'.found = s.found.push d)
  | behind {depth : Nat} {s s' t t' : ReaderState} {visible : Bool}
      (run : Grammar.variant (grammar depth) s = some ((), s')) (within : Token.Within tokens s.rest)
      (visibility : Grammar.visibility t = some (visible, t')) (front : t.rest = s.rest)
      (rest : t'.rest = own ++ s'.rest) (found : s'.found = s.found.push d)

/-- A declaration covers the tokens that it is read from, and so do those in it. -/
inductive Located (tokens : List Token) : Declaration → Prop
  | mk {d : Declaration} {own : List Token} (read : d.ReadFrom tokens own) (nonempty : own ≠ [])
      (extent : d.extent = Token.span own) (header : ∀ e ∈ d.header, Located tokens e)
      (body : ∀ e ∈ d.body, Located tokens e) : Located tokens d

/-- A well-formed declaration of some sort that covers the tokens that it is read from. -/
structure Placed (tokens : List Token) (sort : Head → Bool) (d : Declaration) : Prop extends Fits sort d where
  located : d.Located tokens

end Declaration
end GeneratorHost
