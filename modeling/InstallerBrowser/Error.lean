import InstallerBrowser.Engine.Call
import InstallerBrowser.Session.State
import InstallerBrowser.Storage.FileStore

/-!
# InstallerBrowser.Error

What can go wrong, and how it is told.

An `AppError` keeps the cause; `message` is its wording and `dialogTitle` the title under which
it is shown.
-/

namespace InstallerBrowser

/-- Why an exchange with an engine fails. -/
inductive ProtocolFault where
  /-- A reply that cannot be read; what is wrong with it, in words. -/
  | badReply (message : String)
  | listNotArray
  | differMissing
  /-- A reply, as compact JSON, that is no answer to whether options differ. -/
  | differUnexpected (value : String)
  | workerStopped
  | outputClosed
  | writeFailed (error : StorageError)
deriving Repr, DecidableEq

/-- The wording of a failed exchange. -/
def ProtocolFault.message : ProtocolFault → String
  | .badReply message => message
  | .listNotArray => "list response is not an array"
  | .differMissing => "optionsDiffer response has no `differ` flag"
  | .differUnexpected value => "unexpected optionsDiffer response: " ++ value
  | .workerStopped => "engine worker has stopped"
  | .outputClosed => "engine closed its output before answering"
  | .writeFailed error => "engine write failed: " ++ error.message

/-- The operations that a state of the session can forbid. -/
inductive SessionAction where
  | load
  | extract
  | discardInstaller
deriving Repr, DecidableEq

/-- The words for an operation. -/
def SessionAction.name : SessionAction → String
  | .load => "load"
  | .extract => "extract"
  | .discardInstaller => "discard the installer"

/-- What can go wrong. -/
inductive AppError where
  | storage (error : StorageError)
  | config (message : String)
  | malformedTree (fault : ListingFault)
  /-- An error that the engine reports. -/
  | engine (message : String)
  | protocol (fault : ProtocolFault)
  /-- Another call is under way. -/
  | busy (operation : CallKind)
  | invalidState (action : SessionAction) (state : SessionState)
deriving Repr, DecidableEq

namespace AppError

/-- The wording of an error. -/
def message : AppError → String
  | .storage error => "IO error: " ++ error.message
  | .config message => "Configuration error: " ++ message
  | .malformedTree fault => "Malformed entry tree: " ++ fault.message
  | .engine message => message
  | .protocol fault => "Protocol error: " ++ fault.message
  | .busy operation => "Engine is busy with " ++ operation.name
  | .invalidState action state => "Cannot " ++ action.name ++ " while " ++ state.label

/-- The title of the dialog that shows an error. -/
def dialogTitle : AppError → String
  | .storage _ => "File Error"
  | .config _ => "Configuration Error"
  | .malformedTree _ | .protocol _ => "Load Error"
  | .engine _ => "Engine Error"
  | .busy _ | .invalidState _ _ => "Not Available"

end AppError

end InstallerBrowser
