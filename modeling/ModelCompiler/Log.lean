/-!
# Logged computations

A `Logged` computation has a result, or the fault that ended it, and the lines it logged until then. `result` carries
computations to their results step by step (`result_bind`), so that a statement about results never mentions lines.
-/

namespace ModelCompiler

inductive Level where
  | debug
  | info
  | warning
  | error
  deriving DecidableEq

def Level.text : Level → String
  | .debug => "DEBUG"
  | .info => "INFO"
  | .warning => "WARNING"
  | .error => "ERROR"

/-- The step of a run that a line belongs to. -/
inductive Stage where
  | load
  | register
  | classify
  | emit
  | write
  deriving DecidableEq

def Stage.text : Stage → String
  | .load => "LOAD"
  | .register => "REGISTER"
  | .classify => "CLASSIFY"
  | .emit => "EMIT"
  | .write => "WRITE"

/-- The channel that a line is logged on. -/
inductive Channel where
  | compilation
  | classification
  | rendering
  | writing
  | command
  deriving DecidableEq

def Channel.text : Channel → String
  | .compilation => "modelgen.generators.data_model_gen.generator"
  | .classification => "modelgen.generators.data_model_gen.classifier"
  | .rendering => "modelgen.generators.data_model_gen.render_model"
  | .writing => "modelgen.generators.data_model_gen.writer"
  | .command => "modelgen.main"

structure LogLine where
  level : Level
  channel : Channel
  stage : Option Stage
  /-- The model that the line is about. -/
  model : Option String
  message : String
  deriving DecidableEq

/-- The line as it is printed after the time; a dash stands for an absent model or stage. -/
def LogLine.text (l : LogLine) : String :=
  l.level.text ++ " " ++ l.channel.text ++ " [model=" ++ l.model.getD "-" ++ " stage=" ++
    (l.stage.map Stage.text).getD "-" ++ "] - " ++ l.message

structure Logged (ε α : Type) where
  result : Except ε α
  log : List LogLine

namespace Logged

variable {ε ε' α β : Type}

instance : Monad (Logged ε) where
  pure a := ⟨.ok a, []⟩
  bind x f :=
    match x.result with
    | .error e => ⟨.error e, x.log⟩
    | .ok a => ⟨(f a).result, x.log ++ (f a).log⟩

instance : LawfulMonad (Logged ε) := LawfulMonad.mk' (Logged ε)
  (fun x => by
    obtain ⟨r, l⟩ := x
    cases r <;> simp [Functor.map])
  (fun a f => rfl)
  (fun x f g => by
    obtain ⟨r, l⟩ := x
    cases r with
    | error e => rfl
    | ok a =>
      simp only [bind]
      cases (f a).result <;> simp)

/-- A computation that logs nothing. -/
def ofExcept (result : Except ε α) : Logged ε α := ⟨result, []⟩

/-- Logs one line. -/
def say (line : LogLine) : Logged ε Unit := ⟨.ok (), [line]⟩

def fail (e : ε) : Logged ε α := ⟨.error e, []⟩

def mapError (f : ε → ε') (x : Logged ε α) : Logged ε' α := ⟨x.result.mapError f, x.log⟩

@[simp] theorem result_pure (a : α) : (pure a : Logged ε α).result = .ok a := rfl

@[simp] theorem result_bind (x : Logged ε α) (f : α → Logged ε β) :
    (x >>= f).result = x.result >>= fun a => (f a).result := by
  obtain ⟨r, l⟩ := x
  cases r <;> rfl

@[simp] theorem result_ofExcept (r : Except ε α) : (ofExcept r).result = r := rfl

@[simp] theorem result_say (line : LogLine) : (say line : Logged ε Unit).result = .ok () := rfl

@[simp] theorem result_fail (e : ε) : (fail e : Logged ε α).result = .error e := rfl

@[simp] theorem result_map (g : α → β) (x : Logged ε α) : (g <$> x).result = g <$> x.result := by
  obtain ⟨r, l⟩ := x
  cases r <;> rfl

theorem result_mapM (f : α → Logged ε β) (xs : List α) : (xs.mapM f).result = xs.mapM fun a => (f a).result := by
  induction xs with
  | nil => rfl
  | cons x xs ih => simp [List.mapM_cons, ih]

theorem result_forM (f : α → Logged ε Unit) (xs : List α) : (forM xs f).result = forM xs fun a => (f a).result := by
  induction xs with
  | nil => rfl
  | cons x xs ih => simp [ih]

@[simp] theorem result_mapError (f : ε → ε') (x : Logged ε α) : (x.mapError f).result = x.result.mapError f := rfl

end Logged

end ModelCompiler
