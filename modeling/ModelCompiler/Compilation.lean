import ModelCompiler.Emission.SourceModule

/-!
# Compilation

A list of models compiles to one module for each model, the simple models first. `check` lists the problems of the
models instead, without emitting anything.
-/

namespace ModelCompiler

/-- The module of each model. -/
def compile (u : Universe) (allowCycles : Bool) (models : List Model) : Logged Fault (List SourceModule) := do
  let set ← .ofExcept ((ModelSet.register models).mapError .problem)
  .say ⟨.info, .compilation, some .register, none, "Registered " ++ toString set.size ++ " data models"⟩
  let c ← (set.classify u allowCycles).mapError .problem
  c.models.mapM (SourceModule.ofModel ⟨c, u⟩)

/-- Every problem of the models: a repeated name alone, or else the structural ones and then the refused cycles. -/
def check (u : Universe) (allowCycles : Bool) (models : List Model) : List Problem :=
  match ModelSet.register models with
  | .error problem => [problem]
  | .ok set => set.structuralProblems u ++ if allowCycles then [] else set.cycles.map .cyclicReference

structure SourceFile where
  /-- The path from the directory of the output. -/
  path : String
  content : String
  deriving DecidableEq

/-- The file of a module. -/
def SourceModule.file (m : SourceModule) : SourceFile := ⟨fileName m.name, m.text ++ "\n"⟩

end ModelCompiler
