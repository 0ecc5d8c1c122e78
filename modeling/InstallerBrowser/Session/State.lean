/-!
# InstallerBrowser.Session.State

The states of an extraction session.
-/

namespace InstallerBrowser

/-- What a session is at. -/
inductive SessionState where
  | idle
  | loading
  | ready
  | extracting
  | aborting
  | error
deriving Repr, DecidableEq, Inhabited

namespace SessionState

/-- The word for a state. -/
def label : SessionState → String
  | .idle => "idle"
  | .loading => "loading"
  | .ready => "ready"
  | .extracting => "extracting"
  | .aborting => "aborting"
  | .error => "error"

/-- Whether an installer can be loaded. -/
def canLoad : SessionState → Bool
  | .idle | .ready | .error => true
  | .loading | .extracting | .aborting => false

/-- Whether the queue and the options are locked. -/
def isLocked : SessionState → Bool
  | .loading | .extracting | .aborting => true
  | .idle | .ready | .error => false

end SessionState

end InstallerBrowser
