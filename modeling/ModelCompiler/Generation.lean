import ModelCompiler.Compilation
import ModelCompiler.Loading

/-!
# Generation

A run loads the models of a directory, compiles them all and only then writes the modules to a directory.
-/

namespace ModelCompiler

namespace Disk

/-- The model that a file belongs to: its name up to the first dot. -/
def modelOfFile (name : String) : String := String.ofList (name.toList.takeWhile (· ≠ '.'))

def wroteLine (name : String) : LogLine :=
  ⟨.info, .writing, some .write, some (modelOfFile name), "Wrote " ++ name⟩

/-- Writes files to a directory that is there. Those before a refused one stay. -/
def writeEach (d : Disk) (out : Path) : List SourceFile → Disk × Logged Fault Unit
  | [] => (d, pure ())
  | f :: files =>
    let target := out.join (.ofText f.path)
    match d.writeFile target f.content.toUTF8 with
    | .error e => (d, .fail e)
    | .ok d' =>
      let (d'', rest) := writeEach d' out files
      (d'', .say (wroteLine target.name) >>= fun _ => rest)

/-- Writes files to a directory, which is made when it is missing. -/
def writeFiles (d : Disk) (out : Path) (files : List SourceFile) : Disk × Logged Fault Unit :=
  match d.makeDirectories out with
  | (d', .error e) => (d', .fail e)
  | (d', .ok ()) => writeEach d' out files

end Disk

/-- The files that the models of the input directory compile to. -/
def prepare (d : Disk) (settings : Settings) : Logged Fault (List SourceFile) := do
  let models ← d.loadDirectory (.ofText settings.inDir)
  return (← compile .standard settings.allowCycles models).map SourceModule.file

/-- Compiles the models of the input directory and writes the files to the output directory. -/
def generate (d : Disk) (settings : Settings) : Disk × Logged Fault (List SourceFile) :=
  let prepared := prepare d settings
  match prepared.result with
  | .error _ => (d, prepared)
  | .ok files =>
    let (d', written) := d.writeFiles (.ofText settings.outDir) files
    (d', do
      let files ← prepared
      written
      return files)

end ModelCompiler
