import InstallerBrowser.Action.Keys
import InstallerBrowser.Browser.Drift
import InstallerBrowser.Browser.Files
import InstallerBrowser.Browser.Navigation
import InstallerBrowser.Dialog.Keys

/-!
# InstallerBrowser.Browser.Actions

What actions and keys do.

Without a dialog a key stands for an action; an open dialog takes all keys and decides what they
mean.
-/

namespace InstallerBrowser.Browser

/-- Takes an action. -/
def execute (b : Browser) : Action → Browser
  | .moveUp => b.moveUp
  | .moveDown => b.moveDown
  | .goToTop => b.goToTop
  | .goToBottom => b.goToBottom
  | .collapse => b.collapse
  | .expand => b.expand
  | .activate => b.activate
  | .focusNext => { b with layout := b.layout.toggleFocus }
  | .toggleCheck => b.toggleCheck
  | .checkAll => b.mapMarks (·.checkAll)
  | .uncheckAll => b.mapMarks (·.uncheckAll)
  | .addFile => b.askForFile
  | .removeFile => b.removeSelected
  | .loadInstaller => b.loadSelected
  | .extract => b.extractSelected
  | .abort => b.askToAbort
  | .nextLanguage => b.cycleLanguage true
  | .prevLanguage => b.cycleLanguage false
  | .showOptions => b.openDialog (.options 0)
  | .saveLog => b.saveLog
  | .showHelp => b.openDialog (.help 0)
  | .quit => b.quit

/-! ## Dialogs -/

/-- Closes the dialog. -/
def closeDialog (b : Browser) : Browser := { b with dialog := none }

/-- Changes the option with a number, if there is one. -/
def changeOption (b : Browser) (i : Nat) : Browser :=
  match OptionField.all[i]? with
  | some f => b.toggleOption f
  | none => b

/-- Does what was confirmed. -/
def carryOut (b : Browser) : ConfirmPurpose → Browser
  | .quitWhileExtracting => b.forceQuit
  | .abortExtraction => b.abortExtraction

/-- Closes a dialog and does what one of its buttons says. -/
def press (b : Browser) (d : Dialog) : DialogButton → Browser
  | .cancel => b.closeDialog
  | .ok =>
    match d with
    | .input _ _ line _ => b.closeDialog.addLine line.text
    | .confirm _ _ _ purpose => b.closeDialog.carryOut purpose
    | _ => b.closeDialog

/-- Edits the line of a dialog. -/
def edit (b : Browser) (d : Dialog) (op : LineEdit.Operation) : Browser :=
  match d with
  | .input title prompt line button =>
    match line.step? op with
    | some line => b.openDialog (.input title prompt line button)
    | none => { b with broken := true }
  | _ => b

/-- The number of the option after or before one. -/
def cycledOption (forward : Bool) (i : Nat) : Nat := cycled forward i OptionField.all.length

/-- Does what is asked of the open dialog. -/
def command (b : Browser) (d : Dialog) : DialogCommand → Browser
  | .close => b.closeDialog
  | .confirm =>
    match d with
    | .input _ _ _ button => b.press d button
    | .confirm _ _ button _ => b.press d button
    | _ => b.closeDialog
  | .accept => b.press d .ok
  | .toggleButton => b.openDialog d.toggleButton
  | .edit op => b.edit d op
  | .nextOption =>
    match d with
    | .options i => b.openDialog (.options (cycledOption true i))
    | _ => b
  | .prevOption =>
    match d with
    | .options i => b.openDialog (.options (cycledOption false i))
    | _ => b
  | .changeOption =>
    match d with
    | .options i => b.changeOption i
    | _ => b
  | .resetOptions => b.resetOptions
  | .scrollDown =>
    match d with
    | .help n => b.openDialog (.help (min (n + 1) (Action.helpLineCount - 1)))
    | _ => b
  | .scrollUp =>
    match d with
    | .help n => b.openDialog (.help (n - 1))
    | _ => b

/-! ## Keys -/

/-- Handles a key. -/
def key (b : Browser) (k : KeyPress) : Browser :=
  match b.dialog with
  | some d =>
    match d.command? k with
    | some c => b.command d c
    | none => b
  | none =>
    match Action.ofKey? k with
    | some action => b.execute action
    | none => b

/-- Handles text that is pasted: it goes into the line of a dialog. -/
def paste (b : Browser) (text : String) : Browser :=
  match b.dialog with
  | some d => b.edit d (.paste text)
  | none => b

end InstallerBrowser.Browser
