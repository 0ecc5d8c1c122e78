/-!
# InstallerBrowser.Session.Progress

How far an extraction has come.
-/

namespace InstallerBrowser

/-- What is told of an extraction. -/
structure Progress where
  status : String := ""
  percent : Nat := 0
  /-- When the extraction was started, in milliseconds. -/
  startedAt : Option Nat := none
deriving Repr, DecidableEq, Inhabited

namespace Progress

/-- The progress of an extraction that starts. -/
def start (now : Nat) : Progress :=
  { status := "Starting extraction...", percent := 0, startedAt := some now }

/-- Notes how much is done; more than everything counts as everything. -/
def setPercent (p : Progress) (percent : Nat) : Progress := { p with percent := min percent 100 }

end Progress

end InstallerBrowser
