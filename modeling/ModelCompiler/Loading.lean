import ModelCompiler.Disk
import ModelCompiler.Json.Reader
import ModelCompiler.Log
import ModelCompiler.Model.Shape
import ModelCompiler.Settings

/-!
# Loading

Settings and models are read from JSON files in UTF-8. The models of a directory are those of its files with the
extension `.json`, in the order of the file names; a file whose value is not an array has none.
-/

namespace ModelCompiler

/-- The text with a line feed for every end of a line. -/
def unifyLineEnds : List Char → List Char
  | '\r' :: '\n' :: s => '\n' :: unifyLineEnds s
  | '\r' :: s => '\n' :: unifyLineEnds s
  | c :: s => c :: unifyLineEnds s
  | [] => []

/-- The JSON value that the bytes of a file write; a malformed one is a problem of the subject. -/
def jsonOfBytes (subject : String) (bytes : ByteArray) : Except Fault Json :=
  match String.fromUTF8? bytes with
  | none => .error (.problem (.shape subject ["root (not UTF-8)"]))
  | some text =>
    match Json.read (String.ofList (unifyLineEnds text.toList)) with
    | .ok j => .ok j
    | .error (.malformed fault) => .error (.problem (.shape subject ["root (" ++ fault.message ++ ")"]))
    | .error (.longInteger digits) => .error (.longInteger digits)

namespace Disk

/-- The settings in a file. -/
def loadSettings (d : Disk) (p : Path) : Except Fault Settings := do
  let document ← jsonOfBytes ("config " ++ p.text) (← d.readFile p)
  (Settings.parse document).mapError .problem

/-- The models that the records of a file describe, the first one having the given index. -/
def parseRecords (file : String) : Nat → List Json → Except Problem (List Model)
  | _, [] => .ok []
  | index, record :: records => do
    let m ← Model.parse record ("data model " ++ file ++ "[" ++ toString index ++ "]")
    return m :: (← parseRecords file (index + 1) records)

def loadLine (level : Level) (message : String) : LogLine := ⟨level, .compilation, some .load, none, message⟩

/-- The models in a file. -/
def loadFile (d : Disk) (p : Path) : Logged Fault (List Model) := do
  match ← .ofExcept ((d.readFile p) >>= jsonOfBytes ("JSON in " ++ p.text)) with
  | .array records => .ofExcept ((parseRecords p.text 0 records).mapError .problem)
  | _ =>
    .say (loadLine .warning ("Skipping " ++ p.text ++ ": top-level value is not an array"))
    return []

/-- The models that an entry of a directory adds. -/
def loadEntry (d : Disk) (p : Path) (name : String) : Logged Fault (List Model) := do
  match ← .ofExcept (d.look (p.child name)) with
  | some (.file _) =>
    if Path.extension name = ".json" then
      let models ← d.loadFile (p.child name)
      .say (loadLine .info ("Loaded " ++ toString models.length ++ " data models from " ++ name))
      return models
    else return []
  | _ => return []

/-- The models in the files of a directory. -/
def loadDirectory (d : Disk) (p : Path) : Logged Fault (List Model) := do
  match ← .ofExcept (d.look p) with
  | some (.file _) => .fail (.problem (.shape ("model directory " ++ p.text) ["root (not a directory)"]))
  | _ =>
    let names ← .ofExcept (d.list p)
    return (← (names.mergeSort (· ≤ ·)).mapM (d.loadEntry p)).flatten

end Disk

end ModelCompiler
