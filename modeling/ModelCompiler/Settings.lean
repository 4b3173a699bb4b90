import ModelCompiler.Json.Basic
import ModelCompiler.Problem

/-!
# Settings

Where a run reads its models and writes its modules, and whether it allows reference cycles. A member has a usual
spelling and a plain one.

How the members of a document are found and reported is up to the library that reads settings: a name is taken whatever
the case of its letters and the usual spelling is preferred (`Settings.given?`), and a malformed member is reported by
the usual spelling save where the document has just the plain one (`Settings.reportName`). Names that start with an
underscore set options of that library; here they are names of no member like any others.
-/

namespace ModelCompiler

structure Settings where
  outDir : String
  inDir : String
  allowCycles : Bool
  deriving DecidableEq

namespace Settings

/-- The two spellings of a member. -/
structure Spelling where
  usual : String
  plain : String

def outDirSpelling : Spelling := ⟨"outDir", "out_dir"⟩
def inDirSpelling : Spelling := ⟨"inDir", "in_dir"⟩
def allowCyclesSpelling : Spelling := ⟨"allowCycles", "allow_cycles"⟩

/-- The value that a document gives for a member. -/
def given? (document : Json.Members) (s : Spelling) : Option Json :=
  let spelled (name : String) := document.items.find? fun m => m.1.toLower = name.toLower
  (spelled s.usual <|> spelled s.plain).map Prod.snd

/-- The spelling that a malformed member is reported by: the plain one where it alone stands in the document as it is
written here. -/
def reportName (document : Json.Members) (s : Spelling) : String :=
  if document.contains s.plain && !document.contains s.usual then s.plain else s.usual

/-- The value of a member, the default where it is absent, or the name to report. -/
def member {α : Type} (document : Json.Members) (s : Spelling) (read : Json → Option α) (default : Option α) :
    Except String α :=
  let value := match given? document s with
    | some j => read j
    | none => default
  match value with
  | some a => .ok a
  | none => .error (reportName document s)

def text? : Json → Option String
  | .text s => some s
  | _ => none

def bool? : Json → Option Bool
  | .bool b => some b
  | _ => none

/-- The report of a member that failed. -/
def report {α : Type} : Except String α → List String
  | .ok _ => []
  | .error name => [name]

/-- The settings that a document gives. -/
def parse (document : Json) : Except Problem Settings :=
  match document.members? with
  | none => .error (.shape "config" ["root"])
  | some members =>
    match member members outDirSpelling text? none, member members inDirSpelling text? none,
      member members allowCyclesSpelling bool? (some true) with
    | .ok outDir, .ok inDir, .ok allowCycles => .ok ⟨outDir, inDir, allowCycles⟩
    | outDir, inDir, allowCycles => .error (.shape "config" (report outDir ++ report inDir ++ report allowCycles))

end Settings

end ModelCompiler
