import ModelCompiler.Layout
import ModelCompiler.Scope

/-!
# Generated validators

A generated validator tests its input with the guard of the object type and then has a clause for every field: the
field is reported when all alternatives of its union reject its value. The names of the alternatives are resolved when
the validator is made, and a name that means nothing then is a fault.
-/

namespace ModelCompiler

/-- What a generated validator asks of a field's value: that an alternative of the union reject it. -/
inductive Rejection where
  | byGuard (b : BuiltIn)
  | byModel (name : String)

namespace Rejection

/-- The rejection by the type of a name. -/
def resolve (s : Scope) (type model field : String) : Except Problem Rejection :=
  if s.isModel type then .ok (.byModel type)
  else match s.builtIns.get? type with
    | some b => .ok (.byGuard b)
    | none => .error (.unknownType type model field)

/-- The expression that is true when the field's value is rejected. -/
def source (field : String) : Rejection → String
  | .byGuard b => "!(" ++ b.guard ++ ")(input." ++ field ++ ")"
  | .byModel name => name ++ ".isDataModelTest(input." ++ field ++ ").length !== 0"

end Rejection

/-- A field and the rejections that together report it. -/
structure Clause where
  field : String
  rejections : List Rejection

structure Validator where
  root : BuiltIn
  clauses : List Clause

/-- The report of an input that is no object. -/
def rootFailure : String := "root"

namespace Clause

/-- The clause of a field. -/
def ofField (s : Scope) (model : String) (f : Field) : Except Problem Clause :=
  return ⟨f.name, ← f.types.mapM fun type => Rejection.resolve s type model f.name⟩

/-- The conditions with the operators between them. -/
def conjunction : List String → List String
  | [] => []
  | [condition] => [condition]
  | condition :: conditions => (condition ++ " &&") :: conjunction conditions

def layout (c : Clause) : List Layout :=
  [.between "if (" ") \x7b" ((conjunction (c.rejections.map (Rejection.source c.field))).map .line),
   .block none (some "\x7d") true [.line ("output.push('" ++ c.field ++ "');")]]

end Clause

namespace Validator

/-- The validator of a model. -/
def ofModel (s : Scope) (m : Model) : Except Fault Validator :=
  match s.builtIns.genericObject? with
  | none => .error .noObjectGuard
  | some root => do
    let clauses ← (m.fields.items.mapM (Clause.ofField s m.name)).mapError .problem
    return ⟨root, clauses⟩

def layout (v : Validator) : Layout :=
  .braced "static isDataModelTest(input: unknown): string[]" (
    [.braced ("if (!(" ++ v.root.guard ++ ")(input))") [.line ("return ['" ++ rootFailure ++ "'];")],
     .line "const output: string[] = [];"] ++
    v.clauses.flatMap Clause.layout ++
    [.line "return output;"])

end Validator

end ModelCompiler
