import InstallerBrowser.Dialog.LineEdit
import InstallerBrowser.Error

/-!
# InstallerBrowser.Dialog.Basic

Dialogs.

While a dialog is open it takes all keys. A dialog that asks has two buttons, of which one is
chosen.
-/

namespace InstallerBrowser

/-- A button of a dialog. -/
inductive DialogButton where
  | ok
  | cancel
deriving Repr, DecidableEq, Inhabited

/-- The other button. -/
def DialogButton.other : DialogButton → DialogButton
  | .ok => .cancel
  | .cancel => .ok

/-- What a dialog asks to have confirmed. -/
inductive ConfirmPurpose where
  | quitWhileExtracting
  | abortExtraction
deriving Repr, DecidableEq, Inhabited

/-- A dialog. -/
inductive Dialog where
  /-- Asks for a line of text. -/
  | input (title prompt : String) (line : LineEdit) (button : DialogButton)
  /-- Asks a question. -/
  | confirm (title message : String) (button : DialogButton) (purpose : ConfirmPurpose)
  /-- Shows the options, one of them selected. -/
  | options (selected : Nat)
  | error (title message : String)
  | message (title message : String)
  /-- Shows the help, from a line on. -/
  | help (scroll : Nat)
deriving Repr, DecidableEq, Inhabited

namespace Dialog

/-- Asks for a file to add. -/
def addFile (initial : String) : Dialog :=
  .input "Add Installer" "Installer path:" (.ofText initial) .ok

/-- Asks whether to quit although an extraction is running. -/
def quitWhileExtracting : Dialog :=
  .confirm "Quit" "An extraction is running. Abort it and quit?" .cancel .quitWhileExtracting

/-- Asks whether to abort an extraction. -/
def abortExtraction : Dialog :=
  .confirm "Abort" "Stop the running extraction? Partial output is discarded." .cancel
    .abortExtraction

/-- Tells an error. -/
def ofError (e : AppError) : Dialog := .error e.dialogTitle e.message

/-- Chooses the other button, if there are buttons to choose from. -/
def toggleButton : Dialog → Dialog
  | .input title prompt line button => .input title prompt line button.other
  | .confirm title text button purpose => .confirm title text button.other purpose
  | d => d

/-- Whether a dialog takes text. -/
def isInput : Dialog → Bool
  | .input .. => true
  | _ => false

end Dialog

end InstallerBrowser
