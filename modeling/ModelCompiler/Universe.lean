import ModelCompiler.BuiltIn
import ModelCompiler.Problem

/-!
# Universes of built-in types

A universe is a catalog of scalar types and a catalog of object types. Neither catalog has two types of one name
(`Catalog.register`); a universe is founded on two catalogs that share no name (`Universe.found`). Either catalog may
grow afterwards; a name is looked up among the scalars first.
-/

namespace ModelCompiler

/-- Built-in types with distinct names, in order of registration. -/
abbrev Catalog := Keyed BuiltIn.name

namespace Catalog

/-- Adds a type with a new name. -/
def register (c : Catalog) (b : BuiltIn) : Except Problem Catalog :=
  match c.add? b with
  | some c' => .ok c'
  | none => .error (.duplicateType b.name)

def ofTypes (types : List BuiltIn) : Except Problem Catalog := types.foldlM register Keyed.empty

end Catalog

/-- The catalog that a name belongs to, if any. -/
inductive TypeKind where
  | scalar
  | object
  | unknown
  deriving DecidableEq

structure Universe where
  scalars : Catalog
  objects : Catalog

namespace Universe

/-- The universe over two catalogs, unless an object type has the name of a scalar type. -/
def found (scalars objects : Catalog) : Except Problem Universe :=
  match objects.items.find? fun b => scalars.contains b.name with
  | some b => .error (.duplicateType b.name)
  | none => .ok ⟨scalars, objects⟩

/-- The built-in types of the language. -/
def standard : Universe where
  scalars := ⟨BuiltIn.scalars, by decide⟩
  objects := ⟨BuiltIn.objects, by decide⟩

def resolve (u : Universe) (name : String) : TypeKind :=
  if u.scalars.contains name then .scalar
  else if u.objects.contains name then .object
  else .unknown

/-- The type of a name, a scalar before an object. -/
def get? (u : Universe) (name : String) : Option BuiltIn := u.scalars.get? name <|> u.objects.get? name

def isBuiltIn (u : Universe) (name : String) : Bool := u.resolve name ≠ .unknown

/-- The type that a value must have to be validated against a model. -/
def genericObject? (u : Universe) : Option BuiltIn := u.objects.get? BuiltIn.objectName

end Universe

end ModelCompiler
