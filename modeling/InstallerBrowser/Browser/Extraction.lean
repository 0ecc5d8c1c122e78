import InstallerBrowser.Browser.Basic

/-!
# InstallerBrowser.Browser.Extraction

Loading an installer, choosing its language, extracting from it, and saving the log.
-/

namespace InstallerBrowser.Browser

/-- Loads the selected file. -/
def loadSelected (b : Browser) : Browser :=
  match b.queue.selectedFile with
  | none => b.showToast "No installer selected"
  | some f =>
    match b.session.load f.path b.options.live with
    | (session, .ok ()) =>
      { b with
        session
        options := b.options.markLoaded b.options.live
        driftCheckPending := false
        treeCursor := 0
        treeScroll := 0 }
    | (session, .error e) => { b with session }.reportError e

/-- Whether there is a tree and nothing in it is checked. -/
def nothingChecked (b : Browser) : Bool :=
  match b.session.tree with
  | some tree => tree.checkedCount == 0
  | none => false

/-- Extracts what is checked. -/
def extractSelected (b : Browser) : Browser :=
  let b :=
    if b.nothingChecked then
      b.mapLog (·.info "Nothing is checked; the engine decides what to write")
    else b
  match b.session.extract with
  | (session, .ok ()) => { b with session }
  | (session, .error e) => { b with session }.reportError e

/-- Asks whether to abort the extraction. -/
def askToAbort (b : Browser) : Browser :=
  if b.session.state = .extracting then b.openDialog .abortExtraction
  else b.showToast "No extraction in progress"

/-- Aborts the extraction. -/
def abortExtraction (b : Browser) : Browser :=
  match b.session.abort with
  | (session, true) => { b with session }
  | (session, false) => { b with session }.showToast "No extraction in progress"

/-- The number of the language after or before one of so many. -/
def cycled (forward : Bool) (i count : Nat) : Nat :=
  (if forward then i + 1 else i + count - 1) % count

/-- Chooses the next or the previous language. -/
def cycleLanguage (b : Browser) (forward : Bool) : Browser :=
  let count := b.session.languages.length
  if b.session.state = .ready ∧ 1 < count then
    let (session, _) := b.session.selectLanguage (cycled forward (b.session.language.getD 0) count)
    let b := { b with session }
    match session.selectedLanguage with
    | none => b
    | some l =>
      let message := "Language: " ++ l.displayName
      (b.mapLog (·.debug message)).showToast message
  else b

/-- Saves the buffered log. -/
def saveLog (b : Browser) : Browser :=
  if b.log.mode = .buffered then
    match b.log.flushTo b.session.files b.logDir with
    | (files, .ok path) =>
      { b with session := { b.session with files } }.showToast ("Log saved: " ++ path)
    | (files, .error e) =>
      { b with session := { b.session with files } }.reportError (.storage e)
  else b.showToast "Log is shown live; enable 'Logs to file' to buffer it"

end InstallerBrowser.Browser
