import ModelCompiler.Keyed

/-!
# Data models

A model has a name and an ordered list of fields; a field lists the names of the types that its value may have. Which
of the names are other models is settled only against a set of models.
-/

namespace ModelCompiler

/-- Who may see a field of a generated class. -/
inductive Visibility where
  | everyone
  | subclasses
  | owner
  deriving DecidableEq

namespace Visibility

/-- The keyword of the generated class. -/
def keyword : Visibility → String
  | .everyone => "public"
  | .subclasses => "protected"
  | .owner => "private"

def ofKeyword? : String → Option Visibility
  | "public" => some .everyone
  | "protected" => some .subclasses
  | "private" => some .owner
  | _ => none

end Visibility

structure Field where
  name : String
  /-- The alternatives of the field's union. -/
  types : List String
  modifier : Option Visibility
  types_ne_nil : types ≠ []
  types_nodup : types.Nodup
  deriving DecidableEq

namespace Field

/-- A field without a modifier is seen by subclasses. -/
def visibility (f : Field) : Visibility := f.modifier.getD .subclasses

def isPublic (f : Field) : Bool := f.visibility = .everyone

end Field

abbrev Fields := Keyed Field.name

structure Model where
  name : String
  fields : Fields
  deriving DecidableEq

namespace Model

/-- Each field with each type it lists, in order of declaration. -/
def references (m : Model) : List (String × String) :=
  m.fields.items.flatMap fun f => f.types.map fun t => (f.name, t)

end Model

end ModelCompiler
