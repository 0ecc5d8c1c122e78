import InstallerBrowser.Engine.Reply
import InstallerBrowser.Engine.Worker
import InstallerBrowser.Measure
import InstallerBrowser.Session.Progress
import InstallerBrowser.Storage.Output

/-!
# InstallerBrowser.Session.Basic

The session: one installer, one engine, one call at a time.

A session loads an installer, lists it, lets the user choose, and extracts. Each of the operations
`load`, `extract` and `checkOptions` sends one call, and is refused while another is under way
(`claimSlot`). `poll` handles what the worker has sent: it moves the session on, sends the call
that lists an installer after the one that loads it, and tells each operation's end in one event.

An operation answers with the session after it and with what went wrong, if anything did.
-/

namespace InstallerBrowser

/-! ## Events -/

/-- What a session tells after a poll. -/
inductive SessionEvent where
  | status (text : String)
  | progress (percent : Nat)
  /-- An installer can be chosen from. -/
  | loaded (name : String) (entries : Nat)
  /-- An extraction is done; the path is missing if nothing was written. -/
  | extracted (output : Option String) (status : String)
  | aborted (status : String)
  | optionsDiffer (differ : Bool)
  | failed (error : AppError)
deriving Repr

/-! ## The session -/

/-- A session, the files it works on and its log. -/
structure Session where
  worker : Worker := {}
  files : FileStore
  log : Log
  outputDir : String
  state : SessionState := .idle
  /-- The call that was sent and not answered. -/
  inFlight : Option CallKind := none
  /-- The file that is being loaded. -/
  pendingFile : Option String := none
  loadedFile : Option String := none
  metadata : Option Metadata := none
  tree : Option SelectionTree := none
  /-- The number of the language chosen. -/
  language : Option Nat := none
  /-- The output that is being written. -/
  output : Option OutputSink := none
  progress : Progress := {}
deriving Repr, Inhabited

/-- What an operation leaves, and what went wrong. -/
abbrev Outcome (σ : Type) := σ × Except AppError Unit

namespace Session

/-- A session without an installer. -/
def new (files : FileStore) (log : Log) (outputDir : String) : Session :=
  { files, log, outputDir }

/-! ## What can be seen -/

/-- Whether a call is under way. -/
def isBusy (s : Session) : Bool := s.inFlight.isSome

/-- The tree, where its check marks may be changed. -/
def editableTree (s : Session) : Option SelectionTree :=
  if s.state = .ready then s.tree else none

/-- The file that is being loaded, or the one that was. -/
def currentFile (s : Session) : Option String := s.pendingFile.or s.loadedFile

/-- The languages to choose from. -/
def languages (s : Session) : List Language :=
  match s.metadata with
  | some m => m.languages
  | none => []

/-- The language chosen. -/
def selectedLanguage (s : Session) : Option Language := s.language.bind fun i => s.languages[i]?

/-- The session with a line in its log. -/
def logInfo (s : Session) (message : String) : Session := { s with log := s.log.info message }

/-- The session with another tree. -/
def setTree (s : Session) (tree : SelectionTree) : Session := { s with tree := some tree }

/-! ## Sending -/

/-- Refuses an operation while a call is under way. -/
def claimSlot (s : Session) : Except AppError Unit :=
  match s.inFlight with
  | some kind => .error (.busy kind)
  | none => .ok ()

/-- Sends a call. -/
def dispatch (s : Session) (call : EngineCall) : Outcome Session :=
  match s.worker.send call with
  | (worker, .error e) => ({ s with worker }, .error e)
  | (worker, .ok ()) => ({ s with worker, inFlight := some call.kind }, .ok ())

/-- The session without an installer. -/
def clearInstaller (s : Session) : Session :=
  { s with metadata := none, tree := none, language := none, loadedFile := none, progress := {} }

/-- Starts to load an installer. -/
def load (s : Session) (file : String) (options : Options) : Outcome Session :=
  match s.claimSlot with
  | .error e => (s, .error e)
  | .ok () =>
    if s.state.canLoad then
      match s.clearInstaller.dispatch (.load file options) with
      | (s, .error e) => (s, .error e)
      | (s, .ok ()) =>
        ({ s with pendingFile := some file, state := .loading }.logInfo
          ("Loading file: " ++ file), .ok ())
    else (s, .error (.invalidState .load s.state))

/-- The name by which an output is called. -/
def installerName (s : Session) : String := (s.loadedFile.bind Path.fileName?).getD ""

/-- Starts to extract what is chosen. -/
def extract (s : Session) : Outcome Session :=
  match s.claimSlot with
  | .error e => (s, .error e)
  | .ok () =>
    match s.editableTree with
    | none => (s, .error (.invalidState .extract s.state))
    | some tree =>
      let path := nextOutputPath s.files s.outputDir s.installerName
      match OutputSink.open s.files path with
      | (files, .error e) => ({ s with files }, .error (.storage e))
      | (files, .ok sink) =>
        let request := ExtractionRequest.new tree.checkedSet
          (s.selectedLanguage.map (·.code)) sink.stagingPath
        let s := { s with files }.logInfo
          ("Extracting " ++ toString request.files.length ++ " files and " ++
            toString request.dirs.length ++ " directories")
        match s.dispatch (.extract request) with
        | (s, .error e) => ({ s with files := sink.abandon s.files }, .error e)
        | (s, .ok ()) =>
          ({ s with output := some sink, progress := Progress.start s.log.now
                    state := .extracting }, .ok ())

/-- Asks the engine to stop an extraction; answers whether there was one to stop. -/
def abort (s : Session) : Session × Bool :=
  if s.state = .extracting ∧ s.inFlight = some .extract then
    ({ s with worker := s.worker.abort, state := .aborting
              progress := { s.progress with status := "Aborting..." } }.logInfo
      "Abort requested", true)
  else (s, false)

/-- Asks the engine whether options differ from those of the load. -/
def checkOptions (s : Session) (options : Options) : Outcome Session :=
  match s.claimSlot with
  | .error e => (s, .error e)
  | .ok () => s.dispatch (.optionsDiffer options)

/-- Chooses a language; answers whether there is one with that number. -/
def selectLanguage (s : Session) (i : Nat) : Session × Bool :=
  if i < s.languages.length then ({ s with language := some i }, true) else (s, false)

/-- Gives up the installer. -/
def discardInstaller (s : Session) : Outcome Session :=
  if s.isBusy || s.state.isLocked then
    (s, .error (.invalidState .discardInstaller s.state))
  else
    ({ s.clearInstaller with pendingFile := none, state := .idle }.logInfo
      "Installer discarded", .ok ())

/-- Ends the session: an extraction is aborted and its output is removed. -/
def shutdown (s : Session) : Session :=
  let s := if s.inFlight = some .extract then { s with worker := s.worker.abort } else s
  match s.output with
  | none => s
  | some sink => { s with files := (sink.discard s.files).1, output := none }

/-! ## Handling what was sent -/

/-- What handling an event leaves, what it tells, and what went wrong. -/
abbrev Handled := Session × List SessionEvent × Except AppError Unit

/-- Handles a notice. -/
def onNotice (s : Session) : EngineNotice → Session × List SessionEvent
  | .status text => ({ s with progress := { s.progress with status := text } }, [.status text])
  | .progress percent =>
    let progress := s.progress.setPercent percent
    ({ s with progress }, [.progress progress.percent])
  | .log level message => ({ s with log := s.log.log level message }, [])

/-- Handles the reply to a load: the installer is listed next. -/
def onLoaded (s : Session) (raw : String) : Handled :=
  match Reply.parseLoad raw with
  | .error e => (s, [], .error e)
  | .ok metadata =>
    let s := s.logInfo ("Installer: " ++ metadata.name ++ " (" ++ toString metadata.fileCount ++
      " files, " ++ toString metadata.size ++ " MB)")
    let language := if metadata.languages.isEmpty then none else some 0
    let (s, result) := { s with language, metadata := some metadata }.dispatch .list
    (s, [], result)

/-- Handles the reply to a list: the installer is ready. -/
def onListed (s : Session) (raw : String) : Handled :=
  match Reply.parseList raw with
  | .error e => (s, [], .error e)
  | .ok entries =>
    match SelectionTree.build entries with
    | .error fault => (s, [], .error (.malformedTree fault))
    | .ok tree =>
      let name := (s.metadata.map (·.name)).getD ""
      ({ s with tree := some tree, loadedFile := s.pendingFile, pendingFile := none
                state := .ready }.logInfo ("Listed " ++ toString tree.size ++ " entries"),
        [.loaded name tree.size], .ok ())

/-- The status of an extraction, or another text if the engine gave none. -/
def statusOr (status text : String) : String := if status.isEmpty then text else status

/-- The time an extraction took. -/
def elapsedText (startedAt now : Nat) : String :=
  Measure.elapsed (Decimal.nearest (now - startedAt) 1000)

/-- Gives the output its name, if there is one. -/
def commitOutput (s : Session) : Session × Except AppError (Option String) :=
  match s.output with
  | none => (s, .ok none)
  | some sink =>
    match sink.commit s.files with
    | (files, .ok path) => ({ s with files, output := none }, .ok path)
    | (files, .error e) => ({ s with files, output := none }, .error (.storage e))

/-- Removes the output, if there is one. -/
def discardOutput (s : Session) : Outcome Session :=
  match s.output with
  | none => (s, .ok ())
  | some sink =>
    match sink.discard s.files with
    | (files, .ok ()) => ({ s with files, output := none }, .ok ())
    | (files, .error e) => ({ s with files, output := none }, .error (.storage e))

/-- Handles the reply to an extraction. -/
def onExtracted (s : Session) (raw : String) : Handled :=
  match Reply.parseExtract raw with
  | .error e => (s, [], .error e)
  | .ok (.completed status) =>
    match s.commitOutput with
    | (s, .error e) => (s, [], .error e)
    | (s, .ok output) =>
      let s :=
        match s.progress.startedAt with
        | none => s
        | some time => s.logInfo ("Extraction finished in " ++ elapsedText time s.log.now)
      let status := statusOr status "Completed successfully"
      ({ s with progress := { status, percent := 100, startedAt := none }
                state := .ready }.logInfo status,
        [.extracted output status], .ok ())
  | .ok (.aborted status) =>
    match s.discardOutput with
    | (s, .error e) => (s, [], .error e)
    | (s, .ok ()) =>
      let status := statusOr status "Aborted by user"
      ({ s with progress := {}, state := .ready }.logInfo status, [.aborted status], .ok ())

/-- Handles the reply to whether options differ. -/
def onOptionsDiffer (s : Session) (raw : String) : Handled :=
  match Reply.parseOptionsDiffer raw with
  | .error e => (s, [], .error e)
  | .ok differ => (s, [.optionsDiffer differ], .ok ())

/-- Handles the text of a reply. -/
def onReply (s : Session) (kind : CallKind) (raw : String) : Handled :=
  match kind with
  | .load => s.onLoaded raw
  | .list => s.onListed raw
  | .extract => s.onExtracted raw
  | .optionsDiffer => s.onOptionsDiffer raw

/-- Cleans up after a call that failed. -/
def fail (s : Session) (kind : CallKind) (e : AppError) : Session × List SessionEvent :=
  let s :=
    match kind with
    | .load | .list =>
      { s with metadata := none, tree := none, language := none, pendingFile := none
               state := .error }
    | .extract => { s.discardOutput.1 with progress := {}, state := .error }
    | .optionsDiffer => s
  (s, [.failed e])

/-- Handles one event of the worker. -/
def onEvent (s : Session) : WorkerEvent → Session × List SessionEvent
  | .notice notice => s.onNotice notice
  | .reply kind result =>
    let s := { s with inFlight := none }
    match result with
    | .error e => s.fail kind e
    | .ok raw =>
      match s.onReply kind raw with
      | (s, events, .ok ()) => (s, events)
      | (s, events, .error e) =>
        let (s, more) := s.fail kind e
        (s, events ++ more)
  | .stopped =>
    match s.inFlight with
    | none => (s, [])
    | some kind => { s with inFlight := none }.fail kind (.protocol .workerStopped)

/-- Handles some events in turn. -/
def onEvents (s : Session) : List WorkerEvent → Session × List SessionEvent
  | [] => (s, [])
  | event :: rest =>
    let (s, events) := s.onEvent event
    let (s, more) := s.onEvents rest
    (s, events ++ more)

/-- Handles all that the worker has sent. -/
def poll (s : Session) : Session × List SessionEvent :=
  let (worker, events) := s.worker.poll
  { s with worker }.onEvents events

end Session

end InstallerBrowser
