import InstallerBrowser.Browser.Basic

/-!
# InstallerBrowser.Browser.Drift

Changing the options.

After every change the engine is asked whether the options differ from those of the last load. If
it is busy, the question is put later (`driftCheckPending`). The log follows the options at once.
-/

namespace InstallerBrowser.Browser

/-- Sets up the log by the live options. -/
def applyLogOptions (b : Browser) : Browser :=
  b.mapLog fun log =>
    (log.setDebugEnabled b.options.live.enableDebug).setMode (logModeFor b.options.live)

/-- Asks the engine on the options, unless the session is busy. -/
def requestDriftCheck (b : Browser) : Browser :=
  if b.session.isBusy || b.session.state.isLocked then b
  else
    match b.session.checkOptions b.options.live with
    | (session, .ok ()) => { b with session, driftCheckPending := false }
    | (session, .error (.busy _)) => { b with session }
    | (session, .error e) => { b with session, driftCheckPending := false }.reportError e

/-- Has the engine asked on the options, once there is a load to compare with. -/
def followDrift (b : Browser) : Browser :=
  if b.options.needsDriftCheck then { b with driftCheckPending := true }.requestDriftCheck else b

/-- Whether an option concerns the log. -/
def concernsLog (f : OptionField) : Bool := f == .enableDebug || f == .logsToFile

/-- Changes one option to its next value. -/
def toggleOption (b : Browser) (f : OptionField) : Browser :=
  if b.session.state.isLocked then b.tellLocked "Options are locked"
  else
    let b := { b with options := b.options.toggle f }
    (if concernsLog f then b.applyLogOptions else b).followDrift

/-- Goes back to the options of the settings. -/
def resetOptions (b : Browser) : Browser :=
  if b.session.state.isLocked then b.tellLocked "Options are locked"
  else if b.options.live = b.defaultOptions then b
  else
    let b := { b with options := b.options.setOptions b.defaultOptions }
    (b.applyLogOptions.mapLog (·.debug "Options reset to defaults")).followDrift

end InstallerBrowser.Browser
