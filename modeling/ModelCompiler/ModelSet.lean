import ModelCompiler.Model
import ModelCompiler.Problem

/-!
# Sets of models

A model set holds models with distinct names, in order of registration. A reference of one of its models to another
one is an edge of the reference graph (`targets`).
-/

namespace ModelCompiler

abbrev ModelSet := Keyed Model.name

namespace ModelSet

/-- Adds a model with a new name. -/
def add (set : ModelSet) (m : Model) : Except Problem ModelSet :=
  match set.add? m with
  | some set' => .ok set'
  | none => .error (.duplicateModel m.name)

/-- The models in order, unless a name repeats. -/
def register (models : List Model) : Except Problem ModelSet := models.foldlM add Keyed.empty

/-- The models that a model refers to, itself apart, each once and in order of declaration. -/
def targets (set : ModelSet) (m : Model) : List String :=
  let names := (m.references.map Prod.snd).filter fun t => set.contains t && t ≠ m.name
  (Keyed.ofList names : Keyed (id : String → String)).items

/-- The models that the model of a name refers to. -/
def targetsOf (set : ModelSet) (name : String) : List String := ((set.get? name).map set.targets).getD []

end ModelSet

end ModelCompiler
