import ModelCompiler.Log
import ModelCompiler.ModelSet.Cycle
import ModelCompiler.Text.Quoted
import ModelCompiler.Universe

/-!
# Classification

A model is complex when it refers to another model of the set, and simple otherwise. A set of models can be classified
when every type that a field lists is a built-in type or another model of the set, and no model has the name of a
built-in type; `structuralProblems` lists every offence against this. Reference cycles are reported, or refused where
they are not allowed.
-/

namespace ModelCompiler

structure Classification where
  simple : ModelSet
  complex : ModelSet

namespace Classification

def isComplex (c : Classification) (name : String) : Bool := c.complex.contains name

def isModel (c : Classification) (name : String) : Bool := c.simple.contains name || c.complex.contains name

/-- The model of a name; a complex model hides a simple one. -/
def model? (c : Classification) (name : String) : Option Model := c.complex.get? name <|> c.simple.get? name

/-- The models in the order in which they are emitted. -/
def models (c : Classification) : List Model := c.simple.items ++ c.complex.items

end Classification

namespace ModelSet

/-- What is wrong with one reference of a model. -/
def referenceProblem? (u : Universe) (set : ModelSet) (m : Model) (field type : String) : Option Problem :=
  if u.isBuiltIn type then none
  else if !set.contains type then some (.unknownType type m.name field)
  else if type = m.name then some (.selfReference m.name field)
  else none

/-- What is wrong with one model of a set. -/
def problemsOf (u : Universe) (set : ModelSet) (m : Model) : List Problem :=
  (if u.isBuiltIn m.name then [.builtInName m.name] else []) ++
    m.references.filterMap fun (field, type) => referenceProblem? u set m field type

/-- Every offence in the order of the models, their fields and the types these list. -/
def structuralProblems (u : Universe) (set : ModelSet) : List Problem := set.items.flatMap (problemsOf u set)

/-- Whether a model refers to another model of the set. -/
def refersToModel (u : Universe) (set : ModelSet) (m : Model) : Bool :=
  m.references.any fun (_, type) => !u.isBuiltIn type && set.contains type && type ≠ m.name

/-- The partition into simple and complex models, in the order of the set. -/
def partition (u : Universe) (set : ModelSet) : Classification where
  simple := set.filter fun m => !refersToModel u set m
  complex := set.filter (refersToModel u set)

/-- A cycle where cycles are allowed is only reported. -/
def admitCycle (allowCycles : Bool) (cycle : List String) : Logged Problem Unit :=
  if allowCycles then
    .say ⟨.warning, .classification, some .classify, none, "Cyclic model reference: " ++ cycleText cycle⟩
  else .fail (.cyclicReference cycle)

/-- The classification of a set of models, or the first problem of the set. -/
def classify (u : Universe) (allowCycles : Bool) (set : ModelSet) : Logged Problem Classification := do
  match structuralProblems u set with
  | problem :: _ => .fail problem
  | [] =>
    set.cycles.forM (admitCycle allowCycles)
    let c := partition u set
    .say ⟨.info, .classification, some .classify, none,
      "Classified " ++ toString c.simple.size ++ " simple and " ++ toString c.complex.size ++ " complex data models"⟩
    .say ⟨.debug, .classification, some .classify, none, "Complex data models: " ++ Text.quotedList c.complex.keys⟩
    return c

end ModelSet

end ModelCompiler
