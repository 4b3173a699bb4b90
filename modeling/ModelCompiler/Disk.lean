import ModelCompiler.Fault
import ModelCompiler.Keyed
import ModelCompiler.Path

/-!
# Disks

A disk is a finite map from locations to directories and files, with a working directory. A location is the list of
names from the root; the root is always a directory. A path is followed part by part from the working directory, and
every part but the last must lead to a directory. What an operation refuses it refuses as the system does, with the
path that it was given. There are no links, so every entry has one location; and nothing is refused for its owner or for
want of space.
-/

namespace ModelCompiler

inductive Node where
  | directory
  | file (content : ByteArray)

instance : DecidableEq Node
  | .directory, .directory => isTrue rfl
  | .file a, .file b =>
    if h : a.data = b.data then isTrue (congrArg Node.file (ByteArray.ext h)) else isFalse fun e => h (by cases e; rfl)
  | .directory, .file _ => isFalse nofun
  | .file _, .directory => isFalse nofun

/-- The names that lead from the root to an entry. -/
abbrev Location := List String

structure Entry where
  location : Location
  node : Node
  deriving DecidableEq

structure Disk where
  entries : Keyed Entry.location
  workingDirectory : Location

namespace Disk

/-- What is at a location. -/
def at? (d : Disk) (l : Location) : Option Node :=
  if l = [] then some .directory else (d.entries.get? l).map Entry.node

/-- The disk with something new at a location. -/
def put (d : Disk) (l : Location) (node : Node) : Disk := { d with entries := d.entries.insert ⟨l, node⟩ }

/-- What is put at a location is seen there and nowhere else. -/
theorem at?_put (d : Disk) {l : Location} (h : l ≠ []) (node : Node) (l' : Location) :
    (d.put l node).at? l' = if l' = l then some node else d.at? l' := by
  unfold at? put
  by_cases hl : l' = l
  · subst hl
    simp [h, Keyed.get?_insert_self d.entries ⟨l', node⟩]
  · have : (d.entries.insert ⟨l, node⟩).get? l' = d.entries.get? l' := Keyed.get?_insert_of_ne _ (Ne.symm hl)
    simp [hl, this]

/-! ## Following paths -/

/-- The bytes of the longest name. -/
def maxNameBytes : Nat := 255

/-- The location that parts lead to when each is, or leads up from, a directory. -/
def follow (d : Disk) : Location → List String → Except Refusal Location
  | here, [] => .ok here
  | here, part :: parts =>
    if part = ".." then follow d here.dropLast parts
    else if maxNameBytes < part.utf8ByteSize then .error .nameTooLong
    else match d.at? (here ++ [part]) with
      | none => .error .noSuchFile
      | some (.file _) => .error .notADirectory
      | some .directory => follow d (here ++ [part]) parts

/-- Where a path starts. -/
def base (d : Disk) (p : Path) : Location := if p.rooted then [] else d.workingDirectory

/-- The location of a path, whether something is there or not. -/
def locate (d : Disk) (p : Path) : Except Refusal Location := do
  let parent ← d.follow (d.base p) p.parts.dropLast
  match p.parts.getLast? with
  | none => return parent
  | some last =>
    if last = ".." then return parent.dropLast
    else if maxNameBytes < last.utf8ByteSize then .error .nameTooLong
    else return parent ++ [last]

/-- Whether the path holds the character of code zero. -/
def hasNull (p : Path) : Bool := p.parts.any fun part => part.toList.contains '\x00'

/-- The outcome of an operation on a path. -/
def onPath {α : Type} (p : Path) (outcome : Except Refusal α) : Except Fault α :=
  if hasNull p then .error .nullInPath else outcome.mapError (.refused · p.text)

/-! ## Reading -/

/-- What is at a path. A path that does not lead anywhere leads to nothing. -/
def look (d : Disk) (p : Path) : Except Fault (Option Node) :=
  if hasNull p then .ok none
  else match d.locate p with
    | .ok l => .ok (d.at? l)
    | .error .nameTooLong => .error (.refused .nameTooLong p.text)
    | .error _ => .ok none

def readFile (d : Disk) (p : Path) : Except Fault ByteArray :=
  onPath p do
    match d.at? (← d.locate p) with
    | some (.file content) => return content
    | some .directory => .error .isADirectory
    | none => .error .noSuchFile

/-- The name of an entry of the directory at a location. -/
def nameIn? (l : Location) (e : Entry) : Option String :=
  match e.location.getLast? with
  | some name => if e.location.dropLast = l then some name else none
  | none => none

/-- The names in a directory, in no particular order. -/
def list (d : Disk) (p : Path) : Except Fault (List String) :=
  onPath p do
    let l ← d.locate p
    match d.at? l with
    | some .directory => return d.entries.items.filterMap (nameIn? l)
    | some (.file _) => .error .notADirectory
    | none => .error .noSuchFile

/-! ## Writing -/

/-- Makes a directory where there is nothing. -/
def makeDirectory (d : Disk) (p : Path) : Except Fault Disk :=
  onPath p do
    let l ← d.locate p
    if (d.at? l).isSome then .error .fileExists else return d.put l .directory

/-- Replaces or makes a file. -/
def writeFile (d : Disk) (p : Path) (content : ByteArray) : Except Fault Disk :=
  onPath p do
    let l ← d.locate p
    match d.at? l with
    | some .directory => .error .isADirectory
    | _ => return d.put l (.file content)

/-- The outcome of making a directory that may be there already. -/
def admitExisting (d : Disk) (p : Path) (e : Fault) : Except Fault Unit := do
  match e with
  | .refused .noSuchFile _ => .error e
  | .refused _ _ =>
    match ← d.look p with
    | some .directory => return ()
    | _ => .error e
  | _ => .error e

/-- Makes a directory and those above it that are missing. What was made stays when a later one is refused. -/
def makeDirectories (d : Disk) (p : Path) : Disk × Except Fault Unit :=
  match d.makeDirectory p with
  | .ok d' => (d', .ok ())
  | .error (.refused .noSuchFile path) =>
    if _h : p.parts = [] then (d, .error (.refused .noSuchFile path))
    else
      match makeDirectories d p.parent with
      | (d', .error e) => (d', .error e)
      | (d', .ok ()) =>
        match d'.makeDirectory p with
        | .ok d'' => (d'', .ok ())
        | .error e => (d', d'.admitExisting p e)
  | .error e => (d, d.admitExisting p e)
termination_by p.parts.length
decreasing_by
  have := List.length_pos_iff.mpr _h
  simp only [Path.parent, List.length_dropLast]
  omega

end Disk

end ModelCompiler
