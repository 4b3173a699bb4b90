/-!
# Problems of a model set

What can be wrong with a set of models or with the records that describe them. A problem carries what it is about; the
wording is `Problem.message`.
-/

namespace ModelCompiler

inductive Problem where
  | duplicateModel (name : String)
  | duplicateType (name : String)
  /-- A model has the name of a built-in type. -/
  | builtInName (name : String)
  | selfReference (model field : String)
  | unknownType (typeName model field : String)
  /-- The models of a reference cycle, each referring to the next and the last to the first. -/
  | cyclicReference (cycle : List String)
  /-- A record or a settings document does not have the expected shape. -/
  | shape (subject : String) (failures : List String)
  /-- A problem that has nothing but its message. -/
  | other (message : String)
  deriving DecidableEq

/-- The walk around a cycle, back to where it started. -/
def cycleText (cycle : List String) : String := " -> ".intercalate (cycle ++ cycle.take 1)

def Problem.message : Problem → String
  | .duplicateModel name => "Duplicate data model name: " ++ name
  | .duplicateType name => "Duplicate built-in type name: " ++ name
  | .builtInName name => "Data model name " ++ name ++ " is already a built-in type"
  | .selfReference model field => model ++ "." ++ field ++ ": cannot have a member variable of the same type"
  | .unknownType typeName model field => model ++ "." ++ field ++ ": " ++ typeName ++ " type does not exist"
  | .cyclicReference cycle => "Cyclic data model reference: " ++ cycleText cycle
  | .shape subject failures => "Invalid " ++ subject ++ ": " ++ ", ".intercalate failures
  | .other message => message

end ModelCompiler
