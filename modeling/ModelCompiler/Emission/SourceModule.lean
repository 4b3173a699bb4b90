import ModelCompiler.Emission.Naming
import ModelCompiler.Emission.Validator

/-!
# Generated modules

The module of a model imports the models it refers to, declares the interface of its objects, and declares the class
with constructor, getters, serialisation, reading and validation.
-/

namespace ModelCompiler

namespace Model

/-! ## Imports and interface -/

def importLine (name : String) : String := "import \x7b " ++ name ++ " \x7d from '" ++ moduleSpecifier name ++ "';"

/-- One import for each reference to a model; a simple model has none. -/
def importLines (c : Classification) (m : Model) : List String :=
  if c.isComplex m.name then (m.references.filter fun (_, type) => c.isModel type).map fun (_, type) => importLine type
  else []

def imports (c : Classification) (m : Model) : String := Layout.document ((importLines c m).map .line)

def interfaceText (m : Model) : String :=
  Layout.document [.braced ("export interface " ++ interfaceName m.name)
    (m.fields.items.map fun f => .line (f.name ++ ": " ++ f.unionText ++ ";"))]

/-! ## The members of the class -/

def constructorLayout (m : Model) : Layout :=
  .between "constructor(" ") \x7b\x7d" (m.fields.items.map fun f =>
    .line (f.visibility.keyword ++ " " ++ f.backingName ++ ": " ++ f.unionText ++ ","))

/-- A getter for each field that is not public, after an empty line. -/
def getterLayouts (m : Model) : List Layout :=
  (m.fields.items.filter fun f => !f.isPublic).flatMap fun f =>
    [.blank,
     .braced ("get " ++ f.name ++ "(): " ++ f.unionText) [.line ("return this." ++ f.backingName ++ ";")]]

def toJsonLayout (m : Model) : Layout :=
  .braced ("toJSON(): " ++ interfaceName m.name)
    [.between "return \x7b" "\x7d;" (m.fields.items.map fun f => .line (f.name ++ ": this." ++ f.name ++ ","))]

def fromJsonLayout (m : Model) : Layout :=
  .braced ("static fromJSON(input: " ++ interfaceName m.name ++ "): " ++ m.name)
    [.braced ("if (!" ++ m.name ++ ".isDataModel(input))")
      [.line ("throw new Error(\x60not a data model: $\x7b" ++ m.name ++ ".isDataModelTest(input)\x7d\x60);")],
     .between ("return new " ++ m.name ++ "(") ");" (m.fields.items.map fun f => .line ("input." ++ f.name ++ ","))]

def isDataModelLayout (m : Model) : Layout :=
  .braced ("static isDataModel(input: unknown): input is " ++ m.name)
    [.line ("return " ++ m.name ++ ".isDataModelTest(input).length === 0;")]

/-! ## The class -/

def classLayout (m : Model) (v : Validator) : Layout :=
  .braced ("export class " ++ m.name) (
    m.constructorLayout :: m.getterLayouts ++
    [.blank, m.toJsonLayout, .blank, m.fromJsonLayout, .blank, m.isDataModelLayout, .blank, v.layout])

def classText (s : Scope) (m : Model) : Except Fault String :=
  return Layout.document [classLayout m (← Validator.ofModel s m)]

end Model

/-! ## The module -/

/-- The three parts of the module of a model. -/
structure SourceModule where
  name : String
  imports : String
  interfaceText : String
  classText : String
  deriving DecidableEq

namespace SourceModule

/-- The parts that are not empty, with an empty line between them. -/
def contents (parts : List String) : String := "\n\n".intercalate (parts.filter fun part => !part.isEmpty)

def text (m : SourceModule) : String := contents [m.imports, m.interfaceText, m.classText]

/-- The module of a model. -/
def ofModel (s : Scope) (m : Model) : Logged Fault SourceModule := do
  .say ⟨.debug, .rendering, some .emit, some m.name, "Rendering data model"⟩
  let classText ← .ofExcept (m.classText s)
  return ⟨m.name, m.imports s.classification, m.interfaceText, classText⟩

end SourceModule

end ModelCompiler
