/-! Kinds of declaration nodes. -/
namespace GeneratorHost

inductive Kind where
  | file
  | module
  | struct
  | enum
  | union
  | trait
  | traitAlias
  | impl
  | fn
  | const
  | static
  | typeAlias
  | use
  | externCrate
  | foreignMod
  | itemMacro
  | method
  | assocConst
  | assocType
  | foreignFn
  | foreignStatic
  | foreignType
  | field
  | variant
  | other
deriving DecidableEq, Repr

namespace Kind

/-- The name generators see. -/
def label : Kind → String
  | file => "file"
  | module => "mod"
  | struct => "struct"
  | enum => "enum"
  | union => "union"
  | trait => "trait"
  | traitAlias => "trait_alias"
  | impl => "impl"
  | fn => "fn"
  | const => "const"
  | static => "static"
  | typeAlias => "type"
  | use => "use"
  | externCrate => "extern_crate"
  | foreignMod => "foreign_mod"
  | itemMacro => "macro"
  | method => "method"
  | assocConst => "assoc_const"
  | assocType => "assoc_type"
  | foreignFn => "foreign_fn"
  | foreignStatic => "foreign_static"
  | foreignType => "foreign_type"
  | field => "field"
  | variant => "variant"
  | other => "other"

/-- The name in structured output, which spells out modules and type aliases. -/
def longLabel : Kind → String
  | module => "module"
  | typeAlias => "type_alias"
  | k => k.label

/-- Structs, enums and unions, the declarations that can be generators. -/
def isClassLike : Kind → Bool
  | struct | enum | union => true
  | _ => false

end Kind
end GeneratorHost
