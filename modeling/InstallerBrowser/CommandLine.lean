import InstallerBrowser.Config
import InstallerBrowser.Engine.Process

/-!
# InstallerBrowser.CommandLine

The arguments of the program.

An option takes the argument behind it, or what stands behind an equals sign. A value that is
awaited is settled (`settle`) only when the next option or the end is met, so of two faults the
one that is met first there is reported, and an unknown option before either. Behind `--` every
argument is a file.
-/

namespace InstallerBrowser

/-- The arguments of the program. -/
structure Arguments where
  /-- The files to queue at the start. -/
  files : List String := []
  config : Option String := none
  engine : Option String := none
  bufferedLog : Bool := false
  output : Option String := none
deriving Repr, DecidableEq, Inhabited

namespace Arguments

/-! ## Options -/

/-- The options that take a value. -/
inductive ValueOption where
  | config
  | engine
  | output
deriving Repr, DecidableEq

/-- The name of an option that takes a value. -/
def ValueOption.name : ValueOption → String
  | .config => "config"
  | .engine => "engine"
  | .output => "output"

/-- The option with a name. -/
def ValueOption.ofName? (s : String) : Option ValueOption :=
  [ValueOption.config, .engine, .output].find? fun o => o.name == s

/-- The options that take no value. -/
inductive Switch where
  | bufferedLog
  | help
  | version
deriving Repr, DecidableEq

/-- The switch with a name. -/
def Switch.ofName? : String → Option Switch
  | "buffered-log" => some .bufferedLog
  | "help" => some .help
  | "version" => some .version
  | _ => none

/-- The switch with a letter. -/
def Switch.ofLetter? (c : Char) : Option Switch :=
  if c = 'h' then some .help else if c = 'V' then some .version else none

/-- Why the arguments lead to no start. -/
inductive Refusal where
  | invalidValue
  | unknownArgument
  | argumentConflict
  | tooManyValues
  /-- The help is asked for. -/
  | help
  /-- The version is asked for. -/
  | version
deriving Repr, DecidableEq

/-! ## Reading -/

/-- What awaits to be settled. -/
inductive Awaited where
  | nothing
  /-- An option and its value, if it has come. -/
  | value (option : ValueOption) (value : Option String)
  /-- Files without an option between them. -/
  | files (paths : List String)
deriving Repr, DecidableEq

/-- The arguments read so far. -/
structure Progress where
  arguments : Arguments := {}
  awaited : Awaited := .nothing
  /-- Whether only files follow. -/
  onlyFiles : Bool := false
deriving Repr

/-- A path, which may not be empty. -/
def checkPath (path : String) : Except Refusal String :=
  if path = "" then .error .invalidValue else .ok path

/-- Sets an option, which may be given once. -/
def setValue (a : Arguments) (option : ValueOption) (value : String) :
    Except Refusal Arguments := do
  match option with
  | .config =>
    if a.config.isSome then .error .argumentConflict
    else .ok { a with config := some (← checkPath value) }
  | .engine =>
    if a.engine.isSome then .error .argumentConflict else .ok { a with engine := some value }
  | .output =>
    if a.output.isSome then .error .argumentConflict
    else .ok { a with output := some (← checkPath value) }

/-- Settles what is awaited. -/
def settle (p : Progress) : Except Refusal Progress := do
  match p.awaited with
  | .nothing => .ok p
  | .value _ none => .error .invalidValue
  | .value option (some value) =>
    .ok { p with arguments := ← setValue p.arguments option value, awaited := .nothing }
  | .files paths => do
    let paths ← paths.mapM checkPath
    .ok { p with
      arguments := { p.arguments with files := p.arguments.files ++ paths }, awaited := .nothing }

/-- Sets a switch. -/
def turnOn (p : Progress) (switch : Switch) : Except Refusal Progress := do
  let p ← settle p
  match switch with
  | .help => .error .help
  | .version => .error .version
  | .bufferedLog =>
    if p.arguments.bufferedLog then .error .argumentConflict
    else .ok { p with arguments := { p.arguments with bufferedLog := true } }

/-- Takes a long option behind its dashes. -/
def takeLong (p : Progress) (text : List Char) : Except Refusal Progress := do
  let name := String.ofList (text.takeWhile (· != '='))
  let value : Option String :=
    match text.dropWhile (· != '=') with
    | '=' :: rest => some (String.ofList rest)
    | _ => none
  match ValueOption.ofName? name, Switch.ofName? name, value with
  | some option, _, some value =>
    let p ← settle p
    .ok { p with arguments := ← setValue p.arguments option value }
  | some option, _, none =>
    let p ← settle p
    .ok { p with awaited := .value option none }
  | none, some switch, none => turnOn p switch
  | none, some _, some _ => .error .tooManyValues
  | none, none, _ => .error .unknownArgument

/-- Takes letters behind one dash. -/
def takeLetters (p : Progress) : List Char → Except Refusal Progress
  | [] => .ok p
  | c :: rest =>
    match Switch.ofLetter? c with
    | none => .error .unknownArgument
    | some switch => do
      let p ← turnOn p switch
      takeLetters p rest

/-- Takes a file. -/
def takeFile (p : Progress) (path : String) : Except Refusal Progress := do
  match p.awaited with
  | .files paths => .ok { p with awaited := .files (paths ++ [path]) }
  | _ =>
    let p ← settle p
    .ok { p with awaited := .files [path] }

/-- Takes a text that is no option: the value of one, or a file. -/
def takePlain (p : Progress) (text : String) : Except Refusal Progress :=
  match p.awaited with
  | .value option none => .ok { p with awaited := .value option (some text) }
  | _ => takeFile p text

/-- Takes one argument. -/
def take (p : Progress) (text : String) : Except Refusal Progress :=
  if p.onlyFiles then takeFile p text
  else
    match text.toList with
    | ['-', '-'] => .ok { p with onlyFiles := true }
    | '-' :: '-' :: rest => takeLong p rest
    | ['-'] => takePlain p text
    | '-' :: letters => takeLetters p letters
    | _ => takePlain p text

/-- Reads all arguments. -/
def parse (texts : List String) : Except Refusal Arguments := do
  let p ← texts.foldlM take {}
  let p ← settle p
  .ok p.arguments

/-- The settings with those of the arguments in place of their own. -/
def apply (a : Arguments) (c : Config) : Config :=
  { c with
    engineCommand := a.engine.or c.engineCommand
    logBuffered := a.bufferedLog || c.logBuffered
    outputDir := a.output.or c.outputDir }

/-! ## Starting -/

/-- The name of the program and its version. -/
def versionText : String := "innodir 0.1.0\n"

/-- The help. -/
def helpText : String := "\n".intercalate
  [ "Browse and extract installer images in the terminal"
  , ""
  , "Usage: innodir [OPTIONS] [FILES]..."
  , ""
  , "Arguments:"
  , "  [FILES]...  Installer files to queue on startup"
  , ""
  , "Options:"
  , "      --config <PATH>  Configuration file (default: $INNODIR_CONFIG or <config"
  , "                       dir>/innodir/config.toml)"
  , "      --engine <CMD>   Extraction engine command line"
  , "      --buffered-log   Collect log lines into a buffer instead of the live pane"
  , "      --output <DIR>   Output directory for extracted archives"
  , "  -h, --help           Print help"
  , "  -V, --version        Print version"
  , "" ]

/-- What the program prints instead of starting, and its exit code. -/
structure Exit where
  code : Nat
  stdout : String := ""
  stderr : String := ""
deriving Repr, DecidableEq

/-- How a program ends whose arguments lead to no start. -/
def Refusal.exit : Refusal → Exit
  | .help => { code := 0, stdout := helpText }
  | .version => { code := 0, stdout := versionText }
  | .invalidValue => usage "a value is required or not valid"
  | .unknownArgument => usage "unexpected argument found"
  | .argumentConflict => usage "the argument cannot be used multiple times"
  | .tooManyValues => usage "unexpected value found"
where
  usage (problem : String) : Exit :=
    { code := 2
      stderr := "error: " ++ problem ++ "\n\nUsage: innodir [OPTIONS] [FILES]...\n\n" ++
        "For more information, try '--help'.\n" }

/-- A text whose further lines are set in. -/
def hang (margin : Nat) (text : String) : String :=
  String.ofList (text.toList.flatMap fun c =>
    if c = '\n' then '\n' :: List.replicate margin ' ' else [c])

/-- The report of a failure and its causes, nearest first. Several causes are numbered. -/
def report (message : String) (causes : List String) : String :=
  let listed : List String :=
    match causes with
    | [] => []
    | [cause] => ["", "Caused by:", "    " ++ hang 4 cause]
    | _ =>
      "" :: "Caused by:" ::
        (causes.zipIdx.map fun (cause, i) =>
          let number := toString i
          "".pushn ' ' (5 - number.length) ++ number ++ ": " ++ hang 7 cause)
  "\n".intercalate (("Error: " ++ message) :: listed) ++ "\n"

/-- The causes that an error tells of: itself, and the failed file operation behind it. -/
def causes : AppError → List String
  | .storage e => [AppError.message (.storage e), e.message]
  | e => [e.message]

/-- How a program ends that has failed. -/
def failed (message : String) (causes : List String) : Exit :=
  { code := 1, stderr := report message causes }

/-- The settings that some arguments lead to, and the files to queue. -/
def settings (env : Config.Environment) (store : FileStore) (texts : List String) :
    Except Exit (Config × List String) :=
  match parse texts with
  | .error refusal => .error refusal.exit
  | .ok a =>
    match Config.load env store a.config with
    | .error e => .error (failed "failed to load config" (causes e))
    | .ok c => .ok (a.apply c, a.files)

/-- What the program does with its arguments: it starts an engine with some settings and files,
or it ends. -/
def start (installed : List String) (env : Config.Environment) (store : FileStore)
    (texts : List String) : Except Exit (Config × List String) := do
  let (c, files) ← settings env store texts
  match c.engineCommand with
  | none =>
    .error (failed "no extraction engine configured: set [engine] command or pass --engine" [])
  | some command =>
    match EngineProcess.spawn installed store command with
    | .error e => .error (failed ("failed to start engine `" ++ command ++ "`") (causes e))
    | .ok () => .ok (c, files)

end Arguments

end InstallerBrowser
