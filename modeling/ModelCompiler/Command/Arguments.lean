import ModelCompiler.Text.Digit
import ModelCompiler.Text.Quoted

/-!
# Command line arguments

An argument that starts with a dash is an option when it is a spelling of one, perhaps cut short or followed by `=` and
a value, or when it is neither a negative number nor a text with a space. All arguments are sorted first
(`Word.ofArgument`), those after `--` as plain ones, and the options are then taken in order (`Request.ofWords`).
-/

namespace ModelCompiler.Command

inductive Switch where
  | help
  | config
  | check
  | noCycles
  | verbose
  deriving DecidableEq

namespace Switch

/-- The spellings of the options, in the order in which they are tried. -/
def spellings : List (String × Switch) :=
  [("-h", .help), ("--help", .help), ("--config", .config), ("--check", .check), ("--no-cycles", .noCycles),
   ("-v", .verbose), ("--verbose", .verbose)]

def ofSpelling? (spelling : String) : Option Switch := spellings.lookup spelling

/-- All spellings of an option, for messages. -/
def names (s : Switch) : String := "/".intercalate ((spellings.filter fun e => e.2 = s).map Prod.fst)

end Switch

/-- A use of the program that it refuses. -/
inductive UsageError where
  | ambiguous (argument : String) (spellings : List String)
  | valueExpected (s : Switch)
  | valueIgnored (s : Switch) (value : String)
  | unrecognized (arguments : List String)
  deriving DecidableEq

def UsageError.message : UsageError → String
  | .ambiguous argument spellings =>
    "ambiguous option: " ++ argument ++ " could match " ++ ", ".intercalate spellings
  | .valueExpected s => "argument " ++ s.names ++ ": expected one argument"
  | .valueIgnored s value => "argument " ++ s.names ++ ": ignored explicit argument " ++ Text.quoted value
  | .unrecognized arguments => "unrecognized arguments: " ++ " ".intercalate arguments

/-! ## Sorting the arguments -/

/-- What stands in the same argument as an option. -/
inductive Attached where
  | nothing
  /-- The text after `=`. -/
  | value (text : String)
  /-- The text after a dash and the letter of the option. -/
  | letters (text : List Char)
  deriving DecidableEq

/-- What an argument is before the options are taken. -/
inductive Word where
  | plain
  /-- The two dashes that end the options. -/
  | endOfOptions
  | option (s : Switch) (attached : Attached)
  | unknownOption
  deriving DecidableEq

namespace Word

/-- The text up to the first `=`, and what follows it. -/
def splitValue (s : String) : String × Attached :=
  let name := s.toList.takeWhile (· ≠ '=')
  match s.toList.dropWhile (· ≠ '=') with
  | _ :: value => (String.ofList name, .value (String.ofList value))
  | [] => (s, .nothing)

/-- The options that an argument may be short for, with their spellings. -/
def candidates (argument : String) : List (Switch × String × Attached) :=
  match argument.toList with
  | '-' :: '-' :: _ =>
    let (name, value) := splitValue argument
    Switch.spellings.filterMap fun (spelling, s) =>
      if name.toList.isPrefixOf spelling.toList then some (s, spelling, value) else none
  | dash :: letter :: text =>
    Switch.spellings.filterMap fun (spelling, s) =>
      if spelling = String.ofList [dash, letter] then some (s, spelling, .letters text)
      else if argument.toList.isPrefixOf spelling.toList then some (s, spelling, .nothing)
      else none
  | _ => []

/-- Whether digits, perhaps with a point before the last of them, make up a text. -/
def isDecimal (s : List Char) : Bool :=
  match s.dropWhile Text.isDecimalDigit with
  | [] => !s.isEmpty
  | '.' :: fraction => !fraction.isEmpty && fraction.all Text.isDecimalDigit
  | _ => false

/-- Whether a text is a dash and a decimal number; a line feed may follow. -/
def isNegativeNumber (argument : String) : Bool :=
  match argument.toList with
  | '-' :: number => isDecimal (if number.getLast? = some '\n' then number.dropLast else number)
  | _ => false

/-- What an argument before `--` is. -/
def ofArgument (argument : String) : Except UsageError Word :=
  let (name, value) := splitValue argument
  if argument = "-" ∨ argument.toList.head? ≠ some '-' then .ok .plain
  else match Switch.ofSpelling? name with
  | some s => .ok (.option s value)
  | none =>
    match candidates argument with
    | [(s, _, attached)] => .ok (.option s attached)
    | [] => .ok (if isNegativeNumber argument || argument.toList.contains ' ' then .plain else .unknownOption)
    | several => .error (.ambiguous argument (several.map fun c => c.2.1))

/-- What each argument is. -/
def ofArguments : List String → Except UsageError (List (String × Word))
  | [] => .ok []
  | "--" :: arguments => .ok (("--", .endOfOptions) :: arguments.map (·, .plain))
  | argument :: arguments => return (argument, ← ofArgument argument) :: (← ofArguments arguments)

end Word

/-! ## Taking the options -/

structure Options where
  /-- The path of the settings. -/
  config : String
  check : Bool
  noCycles : Bool
  verbose : Bool
  deriving DecidableEq

/-- The path that the settings are read from by default. -/
def defaultConfig : String := "data_model_gen.json"

def Options.default : Options := ⟨defaultConfig, false, false, false⟩

inductive Request where
  | help
  | run (o : Options)
  deriving DecidableEq

namespace Request

/-- The options with one switched on, or the request for help. -/
def switchOn (o : Options) : Switch → Except Request Options
  | .help => .error .help
  | .config => .ok o
  | .check => .ok { o with check := true }
  | .noCycles => .ok { o with noCycles := true }
  | .verbose => .ok { o with verbose := true }

/-- The options that the letters after an option switch on besides it. From a letter of no option on, the letters are
left over as an argument. -/
def ofLetters (s : Switch) : List Char → Except UsageError (List Switch × List String)
  | [] => .ok ([s], [])
  | '=' :: value => .error (.valueIgnored s (String.ofList value))
  | letter :: letters =>
    if letter = '-' then .error (.valueIgnored s (String.ofList (letter :: letters)))
    else match Switch.ofSpelling? (String.ofList ['-', letter]) with
    | some next => return (← ofLetters next letters).map (s :: ·) id
    | none => .ok ([s], [String.ofList ('-' :: letter :: letters)])

/-- The options that an option and what is attached to it switch on, and the arguments left over. -/
def switches (s : Switch) : Attached → Except UsageError (List Switch × List String)
  | .nothing => .ok ([s], [])
  | .value text => .error (.valueIgnored s text)
  | .letters text => ofLetters s text

/-- Takes the options in order. Help is given as soon as it is asked for; arguments left over are refused. -/
def ofWords (o : Options) (left : List String) : List (String × Word) → Except UsageError Request
  | [] => if left.isEmpty then .ok (.run o) else .error (.unrecognized left)
  | (_, .option .config (.value path)) :: words => ofWords { o with config := path } left words
  | (_, .option .config _) :: (path, .plain) :: words => ofWords { o with config := path } left words
  | (_, .option .config _) :: _ => .error (.valueExpected .config)
  | (_, .option s attached) :: words => do
    let (on, rest) ← switches s attached
    match on.foldlM switchOn o with
    | .error request => return request
    | .ok o => ofWords o (left ++ rest) words
  | (argument, _) :: words => ofWords o (left ++ [argument]) words

/-- What the arguments ask for. -/
def ofArguments (arguments : List String) : Except UsageError Request := do
  ofWords .default [] (← Word.ofArguments arguments)

end Request

end ModelCompiler.Command
