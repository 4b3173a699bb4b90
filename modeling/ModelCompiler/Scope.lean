import ModelCompiler.Classification
import ModelCompiler.Fault

/-!
# Scopes

What the name of a type means: a model of the classification before a built-in type of the universe.
-/

namespace ModelCompiler

structure Scope where
  classification : Classification
  builtIns : Universe

namespace Scope

def model? (s : Scope) (name : String) : Option Model := s.classification.model? name

def isModel (s : Scope) (name : String) : Bool := s.classification.isModel name

end Scope

end ModelCompiler
