/-!
# InstallerBrowser.Action.Registry

What a user can do, and what each action is called.

The registry lists every action once with its identifier, its words for the help and, for some,
its place in the command bar. The command bar is in the order of priorities (`commandBar`), the
help in the order of the registry, by category (`helpEntries`).
-/

namespace InstallerBrowser

/-! ## Actions -/

/-- What a user can do. -/
inductive Action where
  | moveUp
  | moveDown
  | goToTop
  | goToBottom
  | collapse
  | expand
  | activate
  | focusNext
  | toggleCheck
  | checkAll
  | uncheckAll
  | addFile
  | removeFile
  | loadInstaller
  | extract
  | abort
  | nextLanguage
  | prevLanguage
  | showOptions
  | saveLog
  | showHelp
  | quit
deriving Repr, DecidableEq, Inhabited

/-- The parts of the help. -/
inductive ActionCategory where
  | navigation
  | selection
  | installer
  | system
deriving Repr, DecidableEq, Inhabited

namespace ActionCategory

/-- The parts in their order. -/
def all : List ActionCategory := [.navigation, .selection, .installer, .system]

/-- The heading of a part. -/
def title : ActionCategory → String
  | .navigation => "Navigation"
  | .selection => "Selection"
  | .installer => "Installer"
  | .system => "System"

end ActionCategory

/-! ## The registry -/

/-- The place of an action in the command bar. -/
structure BarEntry where
  key : String
  label : String
  priority : Nat
deriving Repr, DecidableEq

/-- What is known of an action. -/
structure ActionInfo where
  action : Action
  id : String
  label : String
  category : ActionCategory
  shortcut : Option String := none
  bar : Option BarEntry := none
deriving Repr, DecidableEq

namespace Action

/-- All actions, in the order of the help. -/
def registry : List ActionInfo :=
  [ { action := .moveUp, id := "move_up", label := "Move up / down"
      category := .navigation, shortcut := some "j / k" }
  , { action := .moveDown, id := "move_down", label := "Move down"
      category := .navigation }
  , { action := .goToTop, id := "go_top", label := "Top / bottom"
      category := .navigation, shortcut := some "g / G" }
  , { action := .goToBottom, id := "go_bottom", label := "Bottom"
      category := .navigation }
  , { action := .collapse, id := "collapse", label := "Collapse / expand directory"
      category := .navigation, shortcut := some "h / l" }
  , { action := .expand, id := "expand", label := "Expand directory"
      category := .navigation }
  , { action := .activate, id := "activate", label := "Load file / open directory"
      category := .navigation, shortcut := some "Enter" }
  , { action := .focusNext, id := "focus_next", label := "Switch pane"
      category := .navigation, shortcut := some "Tab"
      bar := some ⟨"Tab", "Pane", 90⟩ }
  , { action := .toggleCheck, id := "toggle_check", label := "Check / uncheck"
      category := .selection, shortcut := some "Space"
      bar := some ⟨"Spc", "Check", 30⟩ }
  , { action := .checkAll, id := "check_all", label := "Check everything"
      category := .selection, shortcut := some "a" }
  , { action := .uncheckAll, id := "uncheck_all", label := "Uncheck everything"
      category := .selection, shortcut := some "n" }
  , { action := .addFile, id := "add_file", label := "Add file to queue"
      category := .installer, shortcut := some "o"
      bar := some ⟨"o", "Add", 10⟩ }
  , { action := .removeFile, id := "remove_file", label := "Remove file from queue"
      category := .installer, shortcut := some "d / Del" }
  , { action := .loadInstaller, id := "load", label := "Load selected file"
      category := .installer, shortcut := some "r"
      bar := some ⟨"r", "Load", 20⟩ }
  , { action := .extract, id := "extract", label := "Extract checked entries"
      category := .installer, shortcut := some "x"
      bar := some ⟨"x", "Extract", 40⟩ }
  , { action := .abort, id := "abort", label := "Abort extraction"
      category := .installer, shortcut := some "c / ^X"
      bar := some ⟨"c", "Abort", 41⟩ }
  , { action := .nextLanguage, id := "next_language", label := "Next / previous language"
      category := .installer, shortcut := some "] / ["
      bar := some ⟨"[]", "Lang", 50⟩ }
  , { action := .prevLanguage, id := "prev_language", label := "Previous language"
      category := .installer }
  , { action := .showOptions, id := "options", label := "Extraction options"
      category := .system, shortcut := some "O / F2"
      bar := some ⟨"F2", "Options", 60⟩ }
  , { action := .saveLog, id := "save_log", label := "Save buffered log"
      category := .system, shortcut := some "w"
      bar := some ⟨"w", "SaveLog", 70⟩ }
  , { action := .showHelp, id := "help", label := "Help"
      category := .system, shortcut := some "? / F1"
      bar := some ⟨"F1", "Help", 0⟩ }
  , { action := .quit, id := "quit", label := "Quit"
      category := .system, shortcut := some "q / ^C"
      bar := some ⟨"q", "Quit", 99⟩ } ]

/-- The action with an identifier. -/
def ofId? (id : String) : Option Action :=
  (registry.find? fun info => info.id == id).map (·.action)

/-- The identifier of an action. -/
def id (a : Action) : String :=
  match registry.find? fun info => info.action == a with
  | some info => info.id
  | none => ""

/-! ## Command bar and help -/

/-- An item of the command bar. -/
structure BarItem where
  key : String
  label : String
  action : Option Action := none
  enabled : Bool := true
deriving Repr, DecidableEq

/-- The items of the command bar, by priority. -/
def commandBar : List BarItem :=
  let entries := registry.filterMap fun info => info.bar.map fun bar => (bar, info.action)
  let sorted := entries.mergeSort fun a b => decide (a.1.priority ≤ b.1.priority)
  sorted.map fun (bar, action) => { key := bar.key, label := bar.label, action := some action }

/-- The shortcuts and the words for the actions of a category; those without a shortcut are left
out. -/
def helpItems (category : ActionCategory) : List (String × String) :=
  (registry.filter fun info => info.category == category).filterMap fun info =>
    info.shortcut.map fun shortcut => (shortcut, info.label)

/-- The help: categories and their items. -/
def helpEntries : List (String × List (String × String)) :=
  (ActionCategory.all.map fun c => (c.title, helpItems c)).filter fun e => !e.2.isEmpty

/-- How many lines the help takes: a heading and the items of each category, and a blank line
between two categories. -/
def helpLineCount : Nat :=
  helpEntries.foldr (fun e n => e.2.length + 1 + n) 0 + (helpEntries.length - 1)

end Action

end InstallerBrowser
