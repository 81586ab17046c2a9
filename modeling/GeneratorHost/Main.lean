import GeneratorHost.CommandLine.Run

/-! The program: it takes in what a command may read, runs the command, and writes what it changed. It
does not start other programs, so a pass ends where the compiler is looked for. -/
namespace GeneratorHost.Main

/-- The files below some entries of a folder, under names that start at the root. -/
partial def filesBelow (entries : Array IO.FS.DirEntry) : IO (List (FilePath × DiskFile)) := do
  let mut files := []
  for entry in entries do
    if ← entry.path.isDir then
      files := files ++ (← filesBelow (← entry.path.readDir))
    else
      let content : Except String (List UInt8) ← try
          pure (.ok (← IO.FS.readBinFile entry.path).toList)
        catch e => pure (.error (toString e))
      let file : DiskFile := { content := content }
      files := files ++ [((FilePath.ofText entry.path.toString).names, file)]
  return files

/-- The folder a command reads its sources from. -/
def sourceFolder? : CommandLine.Command → Option String
  | .generate source _ | .index source _ _ => some source
  | .runtime _ => none

/-- The path that a command writes to. -/
def target? : CommandLine.Command → Option String
  | .generate _ output => some output
  | .index .. => none
  | .runtime output? => output?

/-- The disk with what a command needs of it. -/
def diskFor (command : CommandLine.Command) : IO Disk := do
  let here ← IO.currentDir
  let current := (FilePath.ofText here.toString).names
  let files ← match sourceFolder? command with
    | some source =>
      let folder := here / source
      if ← folder.isDir then filesBelow (← folder.readDir) else pure []
    | none => pure []
  let folders ← match (target? command).bind FilePath.parent? with
    | some parent =>
      let folder := here / parent
      pure (if ← folder.isDir then [(FilePath.ofText folder.toString).names] else [])
    | none => pure []
  return { files, folders := current :: folders, current }

/-- Makes the folders and writes the files that a command added. -/
def writeBack (before after : Disk) : IO Unit := do
  for folder in after.folders do
    if !before.folders.contains folder then
      IO.FS.createDirAll ("/" ++ Discovery.pathText folder)
  for (path, file) in after.files do
    match file.content with
    | .ok bytes =>
      if before.files.all fun (p, _) => p ≠ path then
        IO.FS.writeBinFile ("/" ++ Discovery.pathText path) ⟨bytes.toArray⟩
    | .error _ => pure ()

/-- Where the program is run. -/
def surroundings (location : String) : CommandLine.Surroundings where
  location
  standard := "rustc"
  program _ _ := .error Disk.notFound
  tools := ⟨fun _ _ => .error Disk.notFound, fun _ => .error "units cannot be loaded"⟩
  workspace := "/tmp/selfgen-unit"

end GeneratorHost.Main

open GeneratorHost in
def main (words : List String) : IO UInt32 := do
  let names := CommandLine.Switch.shared.filterMap (·.environment?)
  let found ← names.filterMapM fun name => do return (← IO.getEnv name).map (name, ·)
  let environment (name : String) : Option String := found.lookup name
  let disk ← match CommandLine.Request.ofWords environment words with
    | .ok request => Main.diskFor request.command
    | .error _ => pure {}
  let location := toString (← IO.appPath)
  let outcome := CommandLine.run (Main.surroundings location) disk environment words
  Main.writeBack disk outcome.disk
  IO.print outcome.stdout
  IO.eprint outcome.stderr
  return outcome.status.toUInt32
