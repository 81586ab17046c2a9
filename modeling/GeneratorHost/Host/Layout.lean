import GeneratorHost.Text.FilePath

/-! Module paths of files by the usual layout: `lib.rs` and `main.rs` at the top are the crate,
`a.rs` and `a/mod.rs` the module `a`. -/
namespace GeneratorHost.Layout

open Text

/-- Whether a path part can be a module's name. -/
def isModuleName : List Char → Bool
  | [] => false
  | c :: cs => (c = '_' || isAlphabetic c) && cs.all fun c => c = '_' || isAlphabetic c || isNumeric c

/-- Whether a path names a source file. -/
def isSource (path : FilePath) : Bool :=
  match path.getLast? with
  | some (.name name) => FilePath.extension? name = some ['r', 's']
  | _ => false

/-- The names on the way from the crate to the module of a file. -/
def moduleNames (dirs : List (List Char)) (stem : List Char) : List (List Char) :=
  if stem = "mod".toList || (dirs.isEmpty && (stem = "lib".toList || stem = "main".toList)) then dirs
  else dirs ++ [stem]

/-- The module path of a source file, if all its parts are names. -/
def moduleOf? (path : FilePath) : Option String :=
  match path.getLast? with
  | some (.name name) =>
    if FilePath.extension? name = some ['r', 's'] then
      let names := moduleNames (path.dropLast.map PathPart.chars) (name.take (name.length - 3))
      if names.all isModuleName then some ("::".intercalate ("crate" :: names.map String.ofList))
      else none
    else none
  | _ => none

def modulePath? (path : String) : Option String := moduleOf? (FilePath.ofText path)

/-- The file of a module that is not the `mod.rs` of a folder; the crate's root is in `lib.rs`. -/
def fileOf (module : String) : String :=
  match (splitColons module.toList).map String.ofList with
  | "crate" :: name :: names => "/".intercalate (name :: names) ++ ".rs"
  | _ => "lib.rs"

end GeneratorHost.Layout
