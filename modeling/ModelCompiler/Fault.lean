import ModelCompiler.Problem
import ModelCompiler.Text.Quoted

/-!
# Faults

Everything that can end an operation early: a problem of the model set, a refusal of the disk, or a use that the
operation does not provide for.
-/

namespace ModelCompiler

/-- Why the disk refuses an operation on a path. -/
inductive Refusal where
  | noSuchFile
  | fileExists
  | notADirectory
  | isADirectory
  | nameTooLong
  deriving DecidableEq

/-- The number and the wording of the system. -/
def Refusal.text : Refusal → String
  | .noSuchFile => "[Errno 2] No such file or directory"
  | .fileExists => "[Errno 17] File exists"
  | .notADirectory => "[Errno 20] Not a directory"
  | .isADirectory => "[Errno 21] Is a directory"
  | .nameTooLong => "[Errno 36] File name too long"

inductive Fault where
  | problem (p : Problem)
  | refused (why : Refusal) (path : String)
  /-- A path holds the character of code zero. -/
  | nullInPath
  /-- An integer in a file has more digits than are read. -/
  | longInteger (digits : Nat)
  /-- A value is validated where the universe has no object type to test it with. -/
  | noObjectTest
  /-- A class is rendered where the universe has no object type to guard it with. -/
  | noObjectGuard
  /-- A field is read from a value of a kind that has no fields. -/
  | noFields (kind : String)
  | wrongArity (model : String) (takes given : Nat)
  | noMember (name : String)
  | noEntry (name : String)
  deriving DecidableEq

def Fault.message : Fault → String
  | .problem p => p.message
  | .refused why path => why.text ++ ": " ++ Text.quoted path
  | .nullInPath => "embedded null byte"
  | .longInteger digits =>
    "Exceeds the limit (4300 digits) for integer string conversion: value has " ++ toString digits ++
      " digits; use sys.set_int_max_str_digits() to increase the limit"
  | .noObjectTest => "'NoneType' object has no attribute 'predicate'"
  | .noObjectGuard => "'NoneType' object has no attribute 'predicate_source'"
  | .noFields kind => "'" ++ kind ++ "' object has no attribute 'get'"
  | .wrongArity model takes given =>
    model ++ " takes " ++ toString takes ++ " values, got " ++ toString given
  | .noMember name => name
  | .noEntry name => Text.quoted name

end ModelCompiler
