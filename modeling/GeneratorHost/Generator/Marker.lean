import GeneratorHost.Text.Escaped
import GeneratorHost.Token.Printer

/-! The marker attribute: it leaves a type declaration as it is and puts an error in front of
anything else. -/
namespace GeneratorHost.Marker

/-- Whether some tokens declare a type: one of them is the word that begins such a declaration. -/
def declaresType (item : List Token) : Bool :=
  item.any fun
    | .ident false name _ => ["struct", "enum", "union"].contains name
    | _ => false

/-- The tokens that make compilation fail with a message. -/
def failure (message : String) : List Token :=
  Token.mark "::".toList ++ [.word "core"] ++ Token.mark "::".toList ++ [.word "compile_error"] ++
    Token.mark ['!'] ++ [.group .brace [.literal (Text.quoted message) default] default]

def takesNothing : String := "#[generator] takes no arguments"

def typesOnly : String := "#[generator] can only be applied to a struct, enum or union"

/-- What the attribute makes of its arguments and the item it stands on. -/
def expand (arguments item : List Token) : List Token :=
  if !arguments.isEmpty then failure takesNothing ++ item
  else if declaresType item then item
  else failure typesOnly ++ item

end GeneratorHost.Marker
