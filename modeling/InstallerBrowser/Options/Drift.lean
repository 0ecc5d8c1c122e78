import InstallerBrowser.Options.Basic

/-!
# InstallerBrowser.Options.Drift

Options and the options of the last load.

The live options are those the controls show. Once an installer has been loaded, the engine can
be asked whether the live options differ from those it was loaded with; `reloadNeeded` keeps its
last answer until the next load.
-/

namespace InstallerBrowser

/-- The live options, those of the last load, and the engine's answer on their difference. -/
structure OptionsState where
  live : Options := {}
  lastLoaded : Option Options := none
  reloadNeeded : Bool := false
deriving Repr, DecidableEq, Inhabited

namespace OptionsState

/-- The state before the first load. -/
def new (initial : Options) : OptionsState := { live := initial }

/-- Changes one option to its next value. -/
def toggle (s : OptionsState) (f : OptionField) : OptionsState := { s with live := s.live.toggle f }

/-- Changes all options. -/
def setOptions (s : OptionsState) (o : Options) : OptionsState := { s with live := o }

/-- Whether there is a load to compare the live options with. -/
def needsDriftCheck (s : OptionsState) : Bool := s.lastLoaded.isSome

/-- Keeps the engine's answer. -/
def applyDriftAnswer (s : OptionsState) (differ : Bool) : OptionsState :=
  { s with reloadNeeded := differ }

/-- Notes the options of a load that starts. -/
def markLoaded (s : OptionsState) (o : Options) : OptionsState :=
  { s with lastLoaded := some o, reloadNeeded := false }

end OptionsState

end InstallerBrowser
