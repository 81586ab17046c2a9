import GeneratorHost.Disk
import GeneratorHost.Failure.Config
import GeneratorHost.Host.Edition
import GeneratorHost.Toolchain.Config
import GeneratorHost.Toolchain.Version

/-! The toolchain as it was found: the compiler and the libraries that every unit is compiled
against. -/
namespace GeneratorHost

/-- What a program printed before it ended, and the number it ended with. -/
structure ProgramOutput where
  status : Nat := 0
  stdout : String := ""
  stderr : String := ""
deriving DecidableEq, Repr

/-- What running a program with some arguments does, or why it cannot be run. -/
abbrev Program := String → List String → Except String ProgramOutput

structure References where
  rustc : String
  version : CompilerVersion
  host : String
  sysroot : String
  macrosLibrary : String
  externs : List ExternCrate
  searchPaths : List String
deriving DecidableEq, Repr

namespace References

/-- Name of the crate that provides the marker. -/
def macrosCrate : String := "selfgen_macros"

/-- The first release that knows edition 2024. -/
def firstOf2024 : CompilerVersion := ⟨1, 85, 0⟩

/-- Why units of an edition cannot be built, if they cannot. -/
def checkEdition (r : References) : Edition → Except String Unit
  | .e2015 => .error
      "edition 2015 is not supported: units rely on 2018 path resolution for the marker crate"
  | .e2024 =>
    if firstOf2024.lessOrEqual r.version then .ok ()
    else .error ("edition 2024 requires rustc 1.85 or newer, found " ++ r.version.text)
  | _ => .ok ()

/-- Folders of the libraries, in order and each one once. -/
def libraryFolders (r : References) : List String :=
  let folders := (r.macrosLibrary :: r.externs.map (·.path)).filterMap FilePath.parent?
  let sorted := folders.mergeSort fun a b => FilePath.lessOrEqual (.ofText a) (.ofText b)
  sorted.foldr (fun folder rest =>
    match rest with
    | next :: _ => if FilePath.ofText folder = FilePath.ofText next then folder :: rest.tail else folder :: rest
    | [] => [folder]) []

/-- The arguments that name the libraries. -/
def libraryArguments (r : References) : List String :=
  (⟨macrosCrate, r.macrosLibrary⟩ :: r.externs).flatMap
      (fun e => ["--extern", e.name ++ "=" ++ e.path]) ++
    r.libraryFolders.flatMap (fun folder => ["-L", "dependency=" ++ folder]) ++
    r.searchPaths.flatMap fun folder => ["-L", folder]

/-- What the compiler prints for some arguments. -/
def ask (run : Program) (rustc : String) (arguments : List String) : Except ConfigError String :=
  match run rustc arguments with
  | .error source => .error (.rustcUnavailable rustc source)
  | .ok output =>
    if output.status = 0 then .ok output.stdout
    else .error (.rustcOutput ("`" ++ rustc ++ " " ++ " ".intercalate arguments ++
      "` exited with exit status: " ++ toString output.status ++ ": " ++ Text.trim output.stderr))

/-- Finds the toolchain. `standard` is the compiler where none is configured, and `searchMacros`
looks for the library of the marker. -/
def discover (config : ToolchainConfig) (disk : Disk) (run : Program) (standard : String)
    (searchMacros : Except ConfigError String) : Except ConfigError References := do
  let rustc := config.rustc?.getD standard
  let (version, host) ← CompilerVersion.ofDescription (← ask run rustc ["-vV"])
  let sysroot := Text.trim (← ask run rustc ["--print", "sysroot"])
  let macrosLibrary ← match config.macrosLibrary? with
    | some path => pure path
    | none => searchMacros
  if !disk.isFile macrosLibrary then throw (.macrosLibraryNotFound [macrosLibrary])
  match config.externs.find? fun e => !disk.contains e.path with
  | some e => throw (.invalid ("--extern " ++ e.name ++ "=" ++ e.path ++ " does not exist"))
  | none => pure ()
  return { rustc, version, host, sysroot, macrosLibrary, externs := config.externs
           searchPaths := config.searchPaths }

/-- Whether a file is a library of the marker's crate: its name is followed by nothing or a hyphen. -/
def isMacrosLibrary (name : List Char) : Bool :=
  let start := "lib".toList ++ macrosCrate.toList
  let stop := ".so".toList
  let middle := (name.drop start.length).take (name.length - start.length - stop.length)
  start.isPrefixOf name && stop.isSuffixOf name && start.length + stop.length ≤ name.length &&
    (middle.isEmpty || middle.head? = some '-')

/-- The folders in which the marker's library is looked for, near the program. -/
def searchFolders (program : String) : List String :=
  match FilePath.parent? program with
  | none => []
  | some folder =>
    FilePath.join folder "deps" ::
      (match FilePath.parent? folder with
        | some above => [FilePath.join above "deps"]
        | none => []) ++ [folder]

/-- The files in a folder that may be the library, with the times of their last change. -/
def macrosLibrariesIn (disk : Disk) (folder : String) : List (Nat × String) :=
  match disk.find folder with
  | .ok (place, .folder) =>
    (disk.entriesOf place).filterMap fun (name, entry) =>
      if isMacrosLibrary name then
        let modified := match entry with
          | .file file => file.modified
          | .folder => disk.foldersModified
        some (modified, FilePath.join folder (String.ofList name))
      else none
  | _ => []

/-- The library that was changed last; the first of several. -/
def searchMacros (disk : Disk) (program : String) : Except ConfigError String :=
  let folders := searchFolders program
  let newest (best? : Option (Nat × String)) (found : Nat × String) : Option (Nat × String) :=
    match best? with
    | some best => if best.1 < found.1 then some found else some best
    | none => some found
  match (folders.flatMap (macrosLibrariesIn disk)).foldl newest none with
  | some (_, path) => .ok path
  | none => .error (.macrosLibraryNotFound folders)

end References
end GeneratorHost
