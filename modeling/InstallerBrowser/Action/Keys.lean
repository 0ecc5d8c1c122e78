import InstallerBrowser.Action.Registry

/-!
# InstallerBrowser.Action.Keys

Keys, and the actions they stand for while no dialog is open.

A binding asks for one set of modifier keys, or takes any. The first binding that fits a key
decides (`Action.ofKey?`).
-/

namespace InstallerBrowser

/-! ## Keys -/

/-- A key of a keyboard. -/
inductive KeyCode where
  | char (c : Char)
  | enter
  | esc
  | tab
  | backTab
  | backspace
  | delete
  | insert
  | left
  | right
  | up
  | down
  | home
  | «end»
  | pageUp
  | pageDown
  | null
  | function (n : Nat)
deriving Repr, DecidableEq

namespace KeyCode

/-- The keys that have names, under their names. -/
def named : List (String × KeyCode) :=
  [ ("Enter", .enter), ("Esc", .esc), ("Tab", .tab), ("BackTab", .backTab)
  , ("Backspace", .backspace), ("Delete", .delete), ("Insert", .insert)
  , ("Left", .left), ("Right", .right), ("Up", .up), ("Down", .down)
  , ("Home", .home), ("End", .«end»), ("PageUp", .pageUp), ("PageDown", .pageDown)
  , ("Null", .null) ]

/-- The function key with a number in decimal, below 256. -/
def ofNumber? (digits : List Char) : Option KeyCode :=
  if digits.isEmpty || !digits.all Char.isDigit then none
  else
    match (String.ofList digits).toNat? with
    | some n => if n < 256 then some (.function n) else none
    | none => none

/-- The key with a name: one of those that have names, a character, or an F and a number. -/
def ofName? (name : String) : Option KeyCode :=
  match named.find? fun (n, _) => n == name with
  | some (_, key) => some key
  | none =>
    match name.toList with
    | [c] => some (.char c)
    | 'F' :: digits => ofNumber? digits
    | _ => none

end KeyCode

/-- The modifier keys that are held down. -/
structure Modifiers where
  control : Bool := false
  shift : Bool := false
  alt : Bool := false
deriving Repr, DecidableEq, Inhabited

/-- A key that is pressed. -/
structure KeyPress where
  code : KeyCode
  modifiers : Modifiers := {}
deriving Repr, DecidableEq

/-! ## Bindings -/

/-- Which modifier keys a binding asks for. -/
inductive ModifierRule where
  | any
  | exactly (modifiers : Modifiers)
deriving Repr, DecidableEq

/-- Whether the modifier keys that are held down fit. -/
def ModifierRule.accepts : ModifierRule → Modifiers → Bool
  | .any, _ => true
  | .exactly wanted, held => wanted == held

/-- A key and the action it stands for. -/
structure KeyBinding where
  code : KeyCode
  rule : ModifierRule
  action : Action
deriving Repr, DecidableEq

namespace Action

/-- All bindings, in the order in which they are tried. -/
def bindings : List KeyBinding :=
  [ ⟨.char 'j', .exactly {}, .moveDown⟩
  , ⟨.down, .any, .moveDown⟩
  , ⟨.char 'k', .exactly {}, .moveUp⟩
  , ⟨.up, .any, .moveUp⟩
  , ⟨.char 'g', .exactly {}, .goToTop⟩
  , ⟨.home, .any, .goToTop⟩
  , ⟨.char 'G', .exactly { shift := true }, .goToBottom⟩
  , ⟨.char 'G', .exactly {}, .goToBottom⟩
  , ⟨.«end», .any, .goToBottom⟩
  , ⟨.char 'h', .exactly {}, .collapse⟩
  , ⟨.left, .any, .collapse⟩
  , ⟨.char 'l', .exactly {}, .expand⟩
  , ⟨.right, .any, .expand⟩
  , ⟨.enter, .any, .activate⟩
  , ⟨.tab, .any, .focusNext⟩
  , ⟨.backTab, .any, .focusNext⟩
  , ⟨.char ' ', .any, .toggleCheck⟩
  , ⟨.char 'a', .exactly {}, .checkAll⟩
  , ⟨.char 'n', .exactly {}, .uncheckAll⟩
  , ⟨.char 'o', .exactly {}, .addFile⟩
  , ⟨.char 'd', .exactly {}, .removeFile⟩
  , ⟨.delete, .any, .removeFile⟩
  , ⟨.char 'r', .exactly {}, .loadInstaller⟩
  , ⟨.function 5, .any, .loadInstaller⟩
  , ⟨.char 'x', .exactly {}, .extract⟩
  , ⟨.char 'c', .exactly {}, .abort⟩
  , ⟨.char 'x', .exactly { control := true }, .abort⟩
  , ⟨.char ']', .any, .nextLanguage⟩
  , ⟨.char '[', .any, .prevLanguage⟩
  , ⟨.char 'O', .exactly { shift := true }, .showOptions⟩
  , ⟨.char 'O', .exactly {}, .showOptions⟩
  , ⟨.function 2, .any, .showOptions⟩
  , ⟨.char 'w', .exactly {}, .saveLog⟩
  , ⟨.char '?', .any, .showHelp⟩
  , ⟨.function 1, .any, .showHelp⟩
  , ⟨.char 'q', .exactly {}, .quit⟩
  , ⟨.char 'c', .exactly { control := true }, .quit⟩ ]

/-- The action that a key stands for. -/
def ofKey? (key : KeyPress) : Option Action :=
  (bindings.find? fun b => b.code == key.code && b.rule.accepts key.modifiers).map (·.action)

end Action

end InstallerBrowser
