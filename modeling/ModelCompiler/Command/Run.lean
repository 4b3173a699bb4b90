import ModelCompiler.Command.Arguments
import ModelCompiler.Generation

/-!
# Running the program

A run takes the arguments and the disk, and leaves a disk, lines of the log, texts for the two outputs and an exit code.
Without `--check` the models are compiled and written; with it their problems are logged and nothing is written. A
problem of the models or a refusal of the disk is logged and ends the run with the exit code 1; any other fault is not
handled.
-/

namespace ModelCompiler.Command

def usage : String := "usage: modelgen [-h] [--config CONFIG] [--check] [--no-cycles] [-v]\n"

/-- The text that `--help` prints, in lines of at most eighty columns. -/
def helpText : String :=
  usage ++ "\n" ++
  "Generate TypeScript data model classes from JSON definitions\n\n" ++
  "options:\n" ++
  "  -h, --help       show this help message and exit\n" ++
  "  --config CONFIG  Path to the generator config (default: " ++ defaultConfig ++ ")\n" ++
  "  --check          Validate and classify models, report every problem, write\n" ++
  "                   nothing\n" ++
  "  --no-cycles      Treat reference cycles between models as errors\n" ++
  "  -v, --verbose    Enable debug logging\n"

/-- What is printed on a use that is refused. -/
def refusalText (e : UsageError) : String := usage ++ "modelgen: error: " ++ e.message ++ "\n"

structure Outcome where
  disk : Disk
  /-- The lines of the log that are printed. -/
  log : List LogLine
  output : String
  errors : String
  /-- The exit code, or the fault that was not handled. -/
  exit : Except Fault Nat

def commandLine (level : Level) (stage : Option Stage) (message : String) : LogLine :=
  ⟨level, .command, stage, none, message⟩

/-- The settings that the options name, with the cycles they refuse. -/
def settingsOf (o : Options) (d : Disk) : Except Fault Settings := do
  let settings ← d.loadSettings (.ofText o.config)
  return { settings with allowCycles := settings.allowCycles && !o.noCycles }

/-- Logs the problems of the models. -/
def runCheck (d : Disk) (settings : Settings) : Logged Fault Nat := do
  let models ← d.loadDirectory (.ofText settings.inDir)
  match check .standard settings.allowCycles models with
  | [] =>
    .say (commandLine .info none (toString models.length ++ " data models OK"))
    return 0
  | problems =>
    problems.forM fun p => .say (commandLine .error (some .classify) p.message)
    return 1

/-- Compiles and writes the models. -/
def runGenerate (d : Disk) (settings : Settings) : Disk × Logged Fault Nat :=
  let (d', generated) := generate d settings
  (d', do
    let files ← generated
    .say (commandLine .info none
      ("Generated " ++ toString files.length ++ " data model files in " ++ settings.outDir))
    return 0)

/-- The run with its faults. -/
def attempt (o : Options) (d : Disk) : Disk × Logged Fault Nat :=
  match settingsOf o d with
  | .error e => (d, .fail e)
  | .ok settings => if o.check then (d, runCheck d settings) else runGenerate d settings

/-- The message about a fault that ends a run with the exit code 1. -/
def handled? : Fault → Option String
  | .refused .noSuchFile path => some ("File not found: " ++ path)
  | .problem p => some ("Generation failed: " ++ p.message)
  | .refused why path => some ("Generation failed: " ++ (Fault.refused why path).message)
  | _ => none

/-- The run with the faults that it handles logged. -/
def handle (run : Logged Fault Nat) : Logged Fault Nat :=
  match run.result with
  | .ok _ => run
  | .error e =>
    match handled? e with
    | some message => ⟨.ok 1, run.log ++ [commandLine .error none message]⟩
    | none => run

/-- Whether a line is printed. -/
def isPrinted (o : Options) (line : LogLine) : Bool := o.verbose || line.level ≠ .debug

/-- Runs the program. -/
def run (d : Disk) (arguments : List String) : Outcome :=
  match Request.ofArguments arguments with
  | .error e => ⟨d, [], "", refusalText e, .ok 2⟩
  | .ok .help => ⟨d, [], helpText, "", .ok 0⟩
  | .ok (.run o) =>
    let (d', attempted) := attempt o d
    let handled := handle attempted
    ⟨d', handled.log.filter (isPrinted o), "", "", handled.result⟩

end ModelCompiler.Command
