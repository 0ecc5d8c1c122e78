import InstallerBrowser.Action.Keys
import InstallerBrowser.Dialog.Basic

/-!
# InstallerBrowser.Dialog.Keys

What keys do while a dialog is open.
-/

namespace InstallerBrowser

/-- What a key can ask of a dialog. -/
inductive DialogCommand where
  | close
  /-- Does what the chosen button says. -/
  | confirm
  /-- Does what the first button says. -/
  | accept
  | toggleButton
  | edit (op : LineEdit.Operation)
  | nextOption
  | prevOption
  /-- Changes the selected option to its next value. -/
  | changeOption
  | resetOptions
  | scrollDown
  | scrollUp
deriving Repr, DecidableEq

namespace Dialog

/-- What a key asks of a dialog that takes text. -/
def inputCommand? (key : KeyPress) : Option DialogCommand :=
  match key.code with
  | .enter => some .confirm
  | .esc => some .close
  | .tab | .backTab => some .toggleButton
  | .char c =>
    if key.modifiers.control then
      match c with
      | 'w' => some (.edit .deleteSegment)
      | 'u' => some (.edit .deleteToStart)
      | 'a' => some (.edit .toStart)
      | 'e' => some (.edit .toEnd)
      | _ => none
    else some (.edit (.insert c))
  | .backspace => some (.edit .backspace)
  | .delete => some (.edit .delete)
  | .left => some (.edit .left)
  | .right => some (.edit .right)
  | .home => some (.edit .toStart)
  | .«end» => some (.edit .toEnd)
  | _ => none

/-- What a key asks of a question. -/
def confirmCommand? : KeyCode → Option DialogCommand
  | .left | .right | .tab | .char 'h' | .char 'l' => some .toggleButton
  | .enter => some .confirm
  | .char 'y' | .char 'Y' => some .accept
  | .esc | .char 'n' | .char 'N' => some .close
  | _ => none

/-- What a key asks of the options. -/
def optionsCommand? : KeyCode → Option DialogCommand
  | .down | .char 'j' | .tab => some .nextOption
  | .up | .char 'k' | .backTab => some .prevOption
  | .enter | .char ' ' => some .changeOption
  | .char 'd' => some .resetOptions
  | .esc | .char 'q' | .char 'O' | .function 2 => some .close
  | _ => none

/-- What a key asks of a message. -/
def messageCommand? : KeyCode → Option DialogCommand
  | .enter | .esc | .char ' ' => some .close
  | _ => none

/-- What a key asks of the help. -/
def helpCommand? : KeyCode → Option DialogCommand
  | .down | .char 'j' => some .scrollDown
  | .up | .char 'k' => some .scrollUp
  | .esc | .char '?' | .char 'q' | .function 1 | .enter => some .close
  | _ => none

/-- What a key asks of a dialog. -/
def command? (key : KeyPress) : Dialog → Option DialogCommand
  | .input .. => inputCommand? key
  | .confirm .. => confirmCommand? key.code
  | .options _ => optionsCommand? key.code
  | .error .. | .message .. => messageCommand? key.code
  | .help _ => helpCommand? key.code

end Dialog

end InstallerBrowser
