import ModelCompiler.Model

/-!
# Names in generated code

The names that a model and its fields have in a generated module, and the name of the module and its file.
-/

namespace ModelCompiler

/-- The interface of the objects that a class is read from and written to. -/
def interfaceName (model : String) : String := model ++ "JSON"

/-- What other modules import the module of a model by. -/
def moduleSpecifier (model : String) : String := "./" ++ model ++ ".g"

/-- The file of the module of a model. -/
def fileName (model : String) : String := model ++ ".g.ts"

namespace Field

/-- The constructor parameter that holds a field: the field itself when it is public. -/
def backingName (f : Field) : String := if f.isPublic then f.name else "_" ++ f.name

def unionText (f : Field) : String := " | ".intercalate f.types

end Field

end ModelCompiler
