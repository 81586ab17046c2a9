import GeneratorHost.Proofs.Grammar.Reader

/-! Well-formed declarations: which heads stand in which bodies, and how they are named. -/
namespace GeneratorHost

namespace Head

/-- Heads of what stands in files, modules and blocks. -/
def isItem : Head → Bool
  | module .. | struct _ | enum _ | union _ | trait .. | traitAlias .. | impl .. | fn _ | const _
  | static _ | typeAlias _ | use .. | externCrate .. | foreignMod | itemMacro _ | other => true
  | _ => false

/-- Heads of what stands in traits and implementations. -/
def isMember : Head → Bool
  | method _ | assocConst _ | assocType _ | memberMacro | other => true
  | _ => false

/-- Heads of what stands in foreign blocks. -/
def isForeign : Head → Bool
  | foreignFn _ | foreignStatic _ | foreignType _ | memberMacro | other => true
  | _ => false

def isField : Head → Bool
  | field _ => true
  | _ => false

def isVariant : Head → Bool
  | variant _ => true
  | _ => false

/-- What may stand in the body of a declaration. -/
def admits : Head → Head → Bool
  | struct _ | union _ => isField
  | enum _ => isVariant
  | variant _ => fun h => h.isField || h.isItem
  | trait .. | impl .. => isMember
  | foreignMod => isForeign
  | module _ _ true | fn _ | method _ | const _ | static _ | assocConst _ | field _ => isItem
  | _ => fun _ => false

/-- What has a name, fields apart, has one that items can have. -/
def WellNamed : Head → Prop
  | module name .. | struct name | enum name | union name | trait name _ | traitAlias name _ | fn name
  | const name | static name | typeAlias name | foreignFn name | foreignStatic name | foreignType name
  | method name | assocConst name | assocType name | variant name => IsItemName name
  | itemMacro name? => ∀ name ∈ name?, IsItemName name
  | _ => True

end Head

namespace Declaration

/-- Every name fits, every body holds what its head admits, and every header holds items. -/
inductive WellFormed : Declaration → Prop
  | mk {head : Head} {extent : Extent} {attributes : List Attribute} {header body : List Declaration}
      (named : head.WellNamed)
      (header_items : ∀ d ∈ header, d.head.isItem) (header_formed : ∀ d ∈ header, WellFormed d)
      (body_admitted : ∀ d ∈ body, head.admits d.head) (body_formed : ∀ d ∈ body, WellFormed d) :
      WellFormed ⟨head, extent, attributes, header, body⟩

theorem WellFormed.named {d : Declaration} (hd : d.WellFormed) : d.head.WellNamed := by
  cases hd with
  | mk named => exact named

/-- A well-formed declaration with a head of some sort. -/
structure Fits (sort : Head → Bool) (d : Declaration) : Prop where
  sort : sort d.head
  formed : d.WellFormed

abbrev IsItem : Declaration → Prop := Fits Head.isItem

end Declaration
end GeneratorHost
