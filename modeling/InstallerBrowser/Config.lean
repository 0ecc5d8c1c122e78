import InstallerBrowser.Error
import InstallerBrowser.Screen.Theme
import InstallerBrowser.Text.Blank
import InstallerBrowser.Toml.Parser

/-!
# InstallerBrowser.Config

The settings the program starts with.

Settings are read from a TOML file and never written. A file that is asked for has to be there;
the one at the usual place may be missing, and then nothing is set. `Environment` tells where the
usual places are.
-/

namespace InstallerBrowser

/-! ## Settings -/

/-- The option with one of them set from a TOML value. -/
def Options.setToml (o : Options) (v : Toml) : OptionField → Option Options
  | .enableDebug => (Toml.asBool v).map fun b => { o with enableDebug := b }
  | .excludeTemps => (Toml.asBool v).map fun b => { o with excludeTemps := b }
  | .languageFilter =>
    (Toml.asChoice LanguageFilter.ofName? v).map fun c => { o with languageFilter := c }
  | .collision => (Toml.asChoice Collision.ofName? v).map fun c => { o with collision := c }
  | .logsToFile => (Toml.asBool v).map fun b => { o with logsToFile := b }

/-- The options as fields of a TOML table. -/
def Options.tomlFields : List (Toml.Field Options) :=
  OptionField.all.map fun f => ⟨[f.name, f.secondName], fun v o => o.setToml v f⟩

/-- The options of a TOML value; those that are not given keep their defaults. -/
def Options.ofToml (v : Toml) : Option Options := Toml.asRecord .skipped Options.tomlFields {} v

/-- The settings. -/
structure Config where
  /-- The command line of the engine. -/
  engineCommand : Option String := none
  options : Options := {}
  /-- Whether the log goes into a buffer instead of on screen. -/
  logBuffered : Bool := false
  logDir : Option String := none
  outputDir : Option String := none
  theme : Theme := .dark
deriving Repr, Inhabited

namespace Config

/-- The settings for the engine. -/
def engineFields : List (Toml.Field Config) :=
  [.named "command" Toml.asString fun v c => { c with engineCommand := some v }]

/-- The settings for the log. -/
def logFields : List (Toml.Field Config) :=
  [ .named "buffered" Toml.asBool fun v c => { c with logBuffered := v }
  , .named "dir" Toml.asString fun v c => { c with logDir := some v } ]

/-- The settings for the output. -/
def outputFields : List (Toml.Field Config) :=
  [.named "dir" Toml.asString fun v c => { c with outputDir := some v }]

/-- The groups of settings. -/
def groups : List (Toml.Field Config) :=
  [ ⟨["engine"], fun v c => Toml.asRecord .skipped engineFields c v⟩
  , .named "options" Options.ofToml fun v c => { c with options := v }
  , ⟨["log"], fun v c => Toml.asRecord .skipped logFields c v⟩
  , ⟨["output"], fun v c => Toml.asRecord .skipped outputFields c v⟩
  , .named "theme" Theme.ofToml fun v c => { c with theme := v } ]

/-- The settings of a text, unless it is malformed, holds a group of another name or a value that
does not fit. -/
def parse? (text : String) : Option Config := do
  let members ← Toml.parse? text
  Toml.asRecord .refused groups {} (.table members)

/-- The options to start with: with a buffered log, the option for it is on. -/
def initialOptions (c : Config) : Options :=
  if c.logBuffered then { c.options with logsToFile := true } else c.options

/-! ## Places -/

/-- What the surroundings of the program tell. -/
structure Environment where
  /-- The home directory. -/
  home : String
  /-- The path of a settings file to use in place of the usual one. -/
  configPath : Option String := none
deriving Repr, Inhabited

/-- The path of the settings file, unless another one is asked for. -/
def defaultPath (env : Environment) : String :=
  match env.configPath.map Text.trim with
  | some path => if path = "" then usual else path
  | none => usual
where
  usual : String := Path.join env.home ".config/innodir/config.toml"

/-- What is wrong with a text that holds no settings. -/
def malformedMessage : String := "not a valid configuration"

/-- The settings of a text. -/
def read (text : String) : Except AppError Config :=
  match parse? text with
  | some c => .ok c
  | none => .error (.config malformedMessage)

/-- The settings of a file that is asked for, or of the one at the usual place. -/
def load (env : Environment) (store : FileStore) (path : Option String) :
    Except AppError Config :=
  let file := path.getD (defaultPath env)
  match store.read file with
  | .ok text =>
    match parse? text with
    | some c => .ok c
    | none => .error (.config (file ++ ": " ++ malformedMessage))
  | .error e =>
    if e = .notFound ∧ path = none then .ok {}
    else .error (.config ("cannot read " ++ file ++ ": " ++ e.message))

/-- The directory for saved logs. -/
def logDirIn (c : Config) (env : Environment) : String :=
  c.logDir.getD (Path.join env.home ".local/share/innodir/logs")

/-- The directory for extracted files. -/
def outputDirIn (c : Config) (workingDir : String) : String := c.outputDir.getD workingDir

end Config

end InstallerBrowser
