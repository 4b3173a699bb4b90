/-!
# Paths

A path is a list of parts, none of them empty or `.`; a part `..` is kept, as what it leads to depends on the disk.
Texts that differ in doubled or trailing slashes or in `.` parts name the same path, save that two slashes at the front,
no more and no fewer, are kept.
-/

namespace ModelCompiler

/-- Where a path starts. -/
inductive Path.Start where
  | workingDirectory
  | root
  /-- The root of the disk, written with two slashes. -/
  | doubleSlash
  deriving DecidableEq

structure Path where
  start : Path.Start
  parts : List String
  deriving DecidableEq

namespace Path

/-- Where a text starts that begins with a number of slashes. -/
def Start.ofSlashes : Nat → Start
  | 0 => .workingDirectory
  | 2 => .doubleSlash
  | _ => .root

def Start.text : Start → String
  | .workingDirectory => ""
  | .root => "/"
  | .doubleSlash => "//"

/-- Whether the path starts at the root of the disk. -/
def rooted (p : Path) : Bool := p.start ≠ .workingDirectory

/-- The path that a text names. -/
def ofText (s : String) : Path where
  start := .ofSlashes (s.toList.takeWhile (· = '/')).length
  parts := ((s.toList.splitOn '/').map String.ofList).filter fun p => p ≠ "" && p ≠ "."

/-- The one text for a path. The empty path is a single dot. -/
def text (p : Path) : String :=
  if p.rooted then p.start.text ++ "/".intercalate p.parts
  else if p.parts.isEmpty then "."
  else "/".intercalate p.parts

example : (ofText "./a//../b/").text = "a/../b" ∧ (ofText "//a").text = "//a" ∧ (ofText "///a").text = "/a" := by decide

/-- The path `q` seen from `p`. -/
def join (p q : Path) : Path := if q.rooted then q else { p with parts := p.parts ++ q.parts }

/-- The path of an entry of the directory at `p`. -/
def child (p : Path) (name : String) : Path := { p with parts := p.parts ++ [name] }

def parent (p : Path) : Path := { p with parts := p.parts.dropLast }

/-- The last part. -/
def name (p : Path) : String := p.parts.getLast?.getD ""

/-- The last dot of a file name and what follows it, unless the dot comes first or last. -/
def extension (name : String) : String :=
  let fromEnd := name.toList.reverse
  let after := fromEnd.takeWhile (· ≠ '.')
  let before := (fromEnd.dropWhile (· ≠ '.')).drop 1
  if after.isEmpty || before.isEmpty then "" else String.ofList ('.' :: after.reverse)

example : extension "a.b.json" = ".json" ∧ extension ".json" = "" ∧ extension "a." = "" := by decide

end Path

end ModelCompiler
