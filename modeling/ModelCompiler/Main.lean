import ModelCompiler.Command.Run
import Std.Time

/-!
# The program

Copies what a run looks at from the file system to a disk, runs the program on it, and carries what the run left on the
disk over to the file system.
-/

namespace ModelCompiler.FileSystem

/-- The place of a location in the file system. -/
def place (l : Location) := System.mkFilePath (if l = [] then ["", ""] else "" :: l)

/-- Copies what is at a location, with the bytes of a file only where they are read. -/
def copyNode (withBytes : Bool) (d : Disk) (l : Location) : IO Disk := do
  let p := place l
  if ← p.isDir then return d.put l .directory
  else if ← p.pathExists then
    return d.put l (.file (← if withBytes then IO.FS.readBinFile p else pure .empty))
  else return d

/-- Copies what a path leads through, from a location on. -/
def copyParts (withBytes : Bool) (d : Disk) (here : Location) : List String → IO Disk
  | [] => return d
  | part :: parts => do
    let next := if part = ".." then here.dropLast else here ++ [part]
    copyParts withBytes (← copyNode withBytes d next) next parts

def copyPath (withBytes : Bool) (d : Disk) (p : Path) : IO Disk :=
  if Disk.hasNull p then return d else copyParts withBytes d (d.base p) p.parts

/-- Copies the directory at a path and what is directly in it. -/
def copyDirectory (d : Disk) (p : Path) : IO Disk := do
  let d ← copyPath false d p
  match d.locate p with
  | .error _ => return d
  | .ok l =>
    if d.at? l ≠ some .directory then return d
    let entries ← (place l).readDir
    entries.foldlM (fun d e => copyNode (Path.extension e.fileName = ".json") d (l ++ [e.fileName])) d

/-- The disk that a run with the options sees. -/
def copyFor (d : Disk) (o : Command.Options) : IO Disk := do
  let d ← copyPath true d (.ofText o.config)
  match Command.settingsOf o d with
  | .error _ => return d
  | .ok settings =>
    let out := Path.ofText settings.outDir
    let d ← copyPath false (← copyDirectory d (.ofText settings.inDir)) out
    match (prepare d settings).result with
    | .error _ => return d
    | .ok files => files.foldlM (fun d f => copyPath false d (out.join (.ofText f.path))) d

/-- The disk with nothing but the working directory. -/
def workingDisk : IO Disk := do
  let here := (← IO.currentDir).components.filter (· ≠ "")
  copyParts false ⟨Keyed.empty, here⟩ [] here

/-- Makes in the file system what is new or different on the disk. -/
def carryOver (before after : Disk) : IO Unit := do
  for e in after.entries.items do
    if before.at? e.location ≠ some e.node then
      match e.node with
      | .directory => IO.FS.createDir (place e.location)
      | .file content => IO.FS.writeBinFile (place e.location) content

/-- The time as it stands in front of a printed line of the log. -/
def timeText : IO String := return (← Std.Time.PlainDateTime.now).format "uuuu-MM-dd HH:mm:ss,SSS"

end ModelCompiler.FileSystem

open ModelCompiler in
def main (arguments : List String) : IO UInt32 := do
  let start ← FileSystem.workingDisk
  let before ← match Command.Request.ofArguments arguments with
    | .ok (.run o) => FileSystem.copyFor start o
    | _ => pure start
  let outcome := Command.run before arguments
  FileSystem.carryOver before outcome.disk
  IO.print outcome.output
  for line in outcome.log do
    IO.println ((← FileSystem.timeText) ++ " " ++ line.text)
  IO.eprint outcome.errors
  match outcome.exit with
  | .ok code => return code.toUInt32
  | .error e =>
    IO.eprintln e.message
    return 1
