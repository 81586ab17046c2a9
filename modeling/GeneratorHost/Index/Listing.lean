import GeneratorHost.Index.Build
import GeneratorHost.Json.Printer
import GeneratorHost.Report.Diagnostic

/-! The declaration index as it is shown to a reader: lines of a table, or JSON. -/
namespace GeneratorHost

/-- What is shown of a record. -/
structure ListedRecord where
  record : Record
  isCandidate : Bool

namespace ListedRecord

def name? (l : ListedRecord) : Option String := l.record.symbol?.map (·.name)

def qualifiedName? (l : ListedRecord) : Option String := l.record.symbol?.map (·.qualifiedName)

/-- The text with spaces behind it up to a width. -/
def padRight (width : Nat) (s : String) : String :=
  s ++ String.ofList (List.replicate (width - s.length) ' ')

/-- The text with spaces before it up to a width. -/
def padLeft (width : Nat) (s : String) : String :=
  String.ofList (List.replicate (width - s.length) ' ') ++ s

/-- A line of the table. -/
def line (l : ListedRecord) : String :=
  let n := l.record.node
  let place : Location := ⟨n.tree.path, n.extent.start.line, n.extent.start.column⟩
  padLeft 5 (toString n.index) ++ " " ++ padRight 12 n.kind.label ++ " " ++ place.text ++ " " ++
    l.qualifiedName?.getD "-" ++ if l.isCandidate then " [candidate]" else ""

def json (l : ListedRecord) : JsonValue :=
  let n := l.record.node
  let fields : List (String × JsonValue) :=
    [("index", .ofNat n.index), ("kind", .ofString n.kind.label), ("file", .ofString n.tree.path),
      ("line", .ofNat n.extent.start.line), ("column", .ofNat n.extent.start.column),
      ("parent", .ofOption .ofNat n.parent?), ("name", .ofOption .ofString l.name?),
      ("fully_qualified_name", .ofOption .ofString l.qualifiedName?),
      ("candidate", .bool l.isCandidate)]
  .object (fields.map fun (key, value) => (some key, value))

end ListedRecord

/-- Records of an index in order. -/
abbrev IndexListing := List ListedRecord

namespace IndexListing

/-- All records of an index; one is shown as a candidate if a candidate has its qualified name. -/
def ofIndex (i : DeclarationIndex) : IndexListing :=
  i.records.map fun record =>
    ⟨record, match record.symbol? with
      | some symbol => i.candidates.any (·.name = symbol.qualifiedName)
      | none => false⟩

/-- The records that are shown as candidates. -/
def candidates (l : IndexListing) : IndexListing := l.filter (·.isCandidate)

/-- The table, a line for each record. -/
def table (l : IndexListing) : String := String.join (l.map (·.line ++ "\n"))

/-- The records as an array. -/
def json (l : IndexListing) : String := (JsonValue.array (l.map (·.json))).print ++ "\n"

end IndexListing
end GeneratorHost
