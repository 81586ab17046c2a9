import GeneratorHost.Index.Symbol
import GeneratorHost.Text.Lossy

/-! Declarations as generators see them. Between host and unit a text is bytes behind a pointer
that may be null, and an absent parent is minus one. -/
namespace GeneratorHost

/-- Text as it crosses the boundary of a unit; a null pointer has no bytes. -/
structure RawText where
  bytes? : Option (List UInt8)
deriving DecidableEq, Repr

namespace RawText

def ofString (s : String) : RawText := ⟨some (Text.bytes s)⟩

def null : RawText := ⟨none⟩

/-- The text on the other side; a null pointer reads as no text. -/
def toText (t : RawText) : String := Text.lossy (t.bytes?.getD [])

end RawText

/-- The symbol that generators see: attributes are paths alone. -/
structure SymbolView where
  kind : String
  name : String
  qualifiedName : String
  nameSpace : String
  attributes : List String
  interfaces : List String
deriving DecidableEq, Repr

namespace SymbolView

def hasAttribute (s : SymbolView) (path : String) : Bool := s.attributes.contains path

def implements (s : SymbolView) (trait : String) : Bool := s.interfaces.contains trait

end SymbolView

/-- A declaration that generators see. -/
structure DeclarationView where
  index : Nat
  kind : String
  file : String
  text : String
  extent : Extent
  parent? : Option Nat
  symbol? : Option SymbolView
deriving DecidableEq, Repr

namespace DeclarationView

def name? (d : DeclarationView) : Option String := d.symbol?.map (·.name)

end DeclarationView

/-- A symbol as it crosses the boundary. -/
structure RawSymbol where
  kind : RawText
  name : RawText
  qualifiedName : RawText
  nameSpace : RawText
  attributes : List RawText
  interfaces : List RawText

namespace RawSymbol

def ofSymbol (s : Symbol) : RawSymbol where
  kind := .ofString s.kind.label
  name := .ofString s.name
  qualifiedName := .ofString s.qualifiedName
  nameSpace := .ofString s.nameSpace
  attributes := s.attributes.map fun a => .ofString a.path
  interfaces := s.interfaces.map .ofString

def toView (s : RawSymbol) : SymbolView where
  kind := s.kind.toText
  name := s.name.toText
  qualifiedName := s.qualifiedName.toText
  nameSpace := s.nameSpace.toText
  attributes := s.attributes.map (·.toText)
  interfaces := s.interfaces.map (·.toText)

end RawSymbol

/-- A declaration as it crosses the boundary. -/
structure RawDeclaration where
  kind : RawText
  file : RawText
  text : RawText
  extent : Extent
  parent : Int
  symbol? : Option RawSymbol

namespace RawDeclaration

def ofRecord (r : Record) : RawDeclaration where
  kind := .ofString r.node.kind.label
  file := .ofString r.node.tree.path
  text := .ofString r.node.text
  extent := r.node.extent
  parent := match r.node.parent? with
    | some parent => parent
    | none => -1
  symbol? := r.symbol?.map .ofSymbol

def toView (index : Nat) (d : RawDeclaration) : DeclarationView where
  index
  kind := d.kind.toText
  file := d.file.toText
  text := d.text.toText
  extent := d.extent
  parent? := if d.parent < 0 then none else some d.parent.toNat
  symbol? := d.symbol?.map (·.toView)

end RawDeclaration

/-- The declarations handed to a unit. -/
def marshal (records : List Record) : List RawDeclaration := records.map .ofRecord

/-- The declarations as a unit reads them. -/
def unmarshal (declarations : List RawDeclaration) : List DeclarationView :=
  declarations.zipIdx.map fun (d, index) => d.toView index

end GeneratorHost
