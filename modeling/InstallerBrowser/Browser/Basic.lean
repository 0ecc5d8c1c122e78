import InstallerBrowser.Action.Registry
import InstallerBrowser.Config
import InstallerBrowser.Dialog.Basic
import InstallerBrowser.Options.Drift
import InstallerBrowser.Queue
import InstallerBrowser.Screen.Layout
import InstallerBrowser.Session.Basic

/-!
# InstallerBrowser.Browser.Basic

The browser: a queue of files, a session with one of them, the options, and what is on screen.

The files and the log of a browser are those of its session. `Browser.isEnabled` says which
actions can be taken at the moment.
-/

namespace InstallerBrowser

/-- The state of the program. -/
structure Browser where
  session : Session
  queue : FileQueue := {}
  options : OptionsState := {}
  /-- The options that a reset goes back to. -/
  defaultOptions : Options := {}
  /-- Whether the engine has still to be asked on the options. -/
  driftCheckPending : Bool := false
  layout : Layout := {}
  theme : Theme := .dark
  dialog : Option Dialog := none
  /-- A short message in place of the status. -/
  toast : Option String := none
  /-- The number of the row of the tree with the cursor. -/
  treeCursor : Nat := 0
  treeScroll : Nat := 0
  queueScroll : Nat := 0
  /-- The home directory. -/
  home : String
  /-- The directory for saved logs. -/
  logDir : String
  shouldQuit : Bool := false
  /-- Whether a line was edited inside of a character. -/
  broken : Bool := false
deriving Repr, Inhabited

namespace Browser

/-- The mode of the log that goes with some options. -/
def logModeFor (o : Options) : LogMode := if o.logsToFile then .buffered else .live

/-- A browser with the settings it starts with. -/
def new (config : Config) (env : Config.Environment) (workingDir : String) (files : FileStore) :
    Browser :=
  let options := config.initialOptions
  let log := (Log.new (logModeFor options)).setDebugEnabled options.enableDebug
  { session := Session.new files log (config.outputDirIn workingDir)
    options := OptionsState.new options
    defaultOptions := options
    theme := config.theme
    home := env.home
    logDir := config.logDirIn env }

/-! ## What can be seen -/

/-- The log. -/
def log (b : Browser) : Log := b.session.log

/-- Whether an extraction is under way. -/
def isExtracting (b : Browser) : Bool :=
  b.session.state == .extracting || b.session.state == .aborting

/-- The text of the status bar: the toast, or else the status of the session. -/
def statusText (b : Browser) : String := b.toast.getD b.session.progress.status

/-- The rows of the tree. -/
def rows (b : Browser) : List TreeRow :=
  match b.session.tree with
  | some tree => tree.visibleRows
  | none => []

/-- Whether an action can be taken. -/
def isEnabled (b : Browser) (action : Action) : Bool :=
  let s := b.session
  match action with
  | .loadInstaller => b.queue.canLoad && s.state.canLoad && !s.isBusy
  | .extract => s.state == .ready && !s.isBusy
  | .abort => s.state == .extracting
  | .nextLanguage | .prevLanguage => s.state == .ready && 1 < s.languages.length
  | .addFile | .removeFile => !s.state.isLocked
  | .toggleCheck | .checkAll | .uncheckAll => s.state == .ready
  | .saveLog => b.log.mode == .buffered
  | _ => true

/-! ## Telling -/

/-- Shows a toast. -/
def showToast (b : Browser) (message : String) : Browser := { b with toast := some message }

/-- Opens a dialog, in place of the one that is open. -/
def openDialog (b : Browser) (d : Dialog) : Browser := { b with dialog := some d }

/-- Changes the log. -/
def mapLog (b : Browser) (f : Log → Log) : Browser :=
  { b with session := { b.session with log := f b.session.log } }

/-- Logs an error and shows it. -/
def reportError (b : Browser) (e : AppError) : Browser :=
  (b.mapLog (·.error e.message)).openDialog (.ofError e)

/-- Says that something is locked. -/
def tellLocked (b : Browser) (what : String) : Browser :=
  b.showToast (what ++ " while " ++ b.session.state.label)

/-! ## Quitting -/

/-- Ends the session and quits. -/
def forceQuit (b : Browser) : Browser :=
  { b with session := b.session.shutdown, shouldQuit := true }

/-- Quits, or asks first if an extraction is under way. -/
def quit (b : Browser) : Browser :=
  if b.isExtracting then b.openDialog .quitWhileExtracting else b.forceQuit

end Browser

end InstallerBrowser
