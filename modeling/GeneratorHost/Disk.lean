import GeneratorHost.Text.FilePath

/-! Files and folders by the names on the way to them, and what the system says where one cannot be
found, read or written. -/
namespace GeneratorHost

/-- A file: its bytes, or why they cannot be read, and when it was changed last. -/
structure DiskFile where
  content : Except String (List UInt8)
  modified : Nat := 0

inductive DiskEntry where
  | file (file : DiskFile)
  | folder

/-- What is on a disk. A folder is there if it is listed or something is in it. The current folder
is where relative paths start. -/
structure Disk where
  files : List (FilePath × DiskFile) := []
  folders : List FilePath := []
  current : FilePath := []
  /-- When the folders were changed last. -/
  foldersModified : Nat := 0

namespace Disk

def notFound : String := "No such file or directory (os error 2)"

def alreadyThere : String := "File exists (os error 17)"

def notFolder : String := "Not a directory (os error 20)"

def isFolder : String := "Is a directory (os error 21)"

def nameTooLong : String := "File name too long (os error 36)"

def nameWithZero : String := "file name contained an unexpected NUL byte"

/-- The most bytes that a file's name may have. -/
def maxNameBytes : Nat := 255

def entry? (d : Disk) (path : FilePath) : Option DiskEntry :=
  match d.files.find? (·.1 = path) with
  | some (_, file) => some (.file file)
  | none =>
    if path = [] || d.folders.any path.isPrefixOf || d.files.any fun (p, _) => path.isPrefixOf p then
      some .folder
    else none

/-- Goes on from a folder by one part of a path. -/
def step (d : Disk) (here : FilePath) (part : PathPart) : Except String FilePath :=
  match d.entry? here with
  | none => .error notFound
  | some (.file _) => .error notFolder
  | some .folder =>
    match part with
    | .root => .ok []
    | .current => .ok here
    | .up => .ok here.dropLast
    | .name cs =>
      if maxNameBytes < Text.byteCount cs then .error nameTooLong else .ok (here ++ [.name cs])

/-- Where a path leads to; what it leads to need not be there. -/
def locate (d : Disk) (path : String) : Except String FilePath :=
  if path.toList.contains '\x00' then .error nameWithZero
  else if path = "" then .error notFound
  else (FilePath.ofText path).foldlM d.step d.current

/-- What a path leads to, and where that is. -/
def find (d : Disk) (path : String) : Except String (FilePath × DiskEntry) := do
  let place ← d.locate path
  match d.entry? place with
  | none => throw notFound
  | some (.file file) => if path.endsWith "/" then throw notFolder else return (place, .file file)
  | some .folder => return (place, .folder)

def contains (d : Disk) (path : String) : Bool := (d.find path).isOk

def isFile (d : Disk) (path : String) : Bool :=
  match d.find path with
  | .ok (_, .file _) => true
  | _ => false

/-- The files in a folder and in the folders in it, by their paths from there, in order. -/
def filesUnder (d : Disk) (folder : FilePath) : List (FilePath × DiskFile) :=
  (d.files.filterMap fun (path, file) =>
    if folder.isPrefixOf path && path ≠ folder then some (path.drop folder.length, file)
    else none).mergeSort
      fun a b => FilePath.lessOrEqual a.1 b.1

/-- All entries that are in a folder itself. -/
def entriesOf (d : Disk) (folder : FilePath) : List (List Char × DiskEntry) :=
  let below := (d.files.map (·.1) ++ d.folders).filterMap fun path =>
    if folder.isPrefixOf path then (path.drop folder.length).head? else none
  below.eraseDups.filterMap fun part => (d.entry? (folder ++ [part])).map (part.chars, ·)

/-- Goes on from a folder by one part of a path and adds the folder if it is not there. -/
def enter (d : Disk) (here : FilePath) (part : PathPart) : Except String (Disk × FilePath) :=
  let d := if (d.entry? here).isNone then { d with folders := d.folders ++ [here] } else d
  (d.step here part).map (d, ·)

/-- Adds a folder and the folders around it. -/
def createFolders (d : Disk) (path : String) : Except String Disk := do
  if path.toList.contains '\x00' then throw nameWithZero
  if path = "" then return d
  let (d, place) ← (FilePath.ofText path).foldlM (fun (d, here) part => d.enter here part) (d, d.current)
  match d.entry? place with
  | some (.file _) => throw alreadyThere
  | some .folder => return d
  | none => return { d with folders := d.folders ++ [place] }

/-- Puts a file where another one may be. -/
def put (d : Disk) (place : FilePath) (bytes : List UInt8) : Disk :=
  { d with files := d.files.filter (·.1 ≠ place) ++ [(place, { content := .ok bytes })] }

/-- Writes a file into a folder that is there. -/
def write (d : Disk) (path : String) (bytes : List UInt8) : Except String Disk := do
  let place ← d.locate path
  match d.entry? place with
  | some .folder => throw isFolder
  | _ => if path.endsWith "/" then throw isFolder else return d.put place bytes

/-- The path of a program: one that is a name alone is looked for in some folders. -/
def program? (d : Disk) (folders : List String) (name : String) : Option String :=
  let paths := if name.toList.contains '/' then [name] else folders.map (FilePath.join · name)
  paths.find? d.contains

end Disk
end GeneratorHost
