import InstallerBrowser.Screen.Paragraph
import InstallerBrowser.Screen.Theme
import InstallerBrowser.Text.Uppercase

/-!
# InstallerBrowser.Panel.StatusBar

The status bar: the state, how far an extraction has come, the last status, and on the right
whether options have changed and how many lines of the log are buffered.
-/

namespace InstallerBrowser

namespace StatusBar

/-- The colors of the bar. -/
structure Palette where
  background : Color := .rgb 30 30 30
  text : Color := .rgb 212 212 212
  state : Color := .rgb 0 120 212
  warning : Color := .yellow
deriving Repr, DecidableEq

/-- The colors of the bar in a theme. -/
def Palette.ofTheme (t : Theme) : Palette :=
  { background := t.statusBarBg, text := t.statusBarFg
    state := t.statusBarFg, warning := t.warning }

/-- The cells of the gauge. -/
def gaugeWidth : Nat := 10

/-- A gauge for so many percent, and the number. -/
def gauge (percent : Nat) : String :=
  let percent := min percent 100
  let filled := percent * gaugeWidth / 100
  let number := toString percent
  "[" ++ "".pushn '#' filled ++ "".pushn '-' (gaugeWidth - filled) ++ "] " ++
    "".pushn ' ' (3 - number.length) ++ number ++ "%"

end StatusBar

/-- What the bar shows. -/
structure StatusBar where
  state : String := "idle"
  /-- How far an extraction has come, if there is one. -/
  percent : Option Nat := none
  status : String := ""
  /-- How many lines are buffered, if the log is buffered. -/
  buffered : Option Nat := none
  reloadNeeded : Bool := false
  palette : StatusBar.Palette := {}
deriving Repr

namespace StatusBar

/-- The text on the right. -/
def notes (b : StatusBar) : String :=
  (if b.reloadNeeded then "options changed, reload " else "") ++
    (match b.buffered with
    | some n => "[log " ++ toString n ++ "] "
    | none => "")

/-- The part on the left. -/
def front (b : StatusBar) : Line :=
  [ ⟨" " ++ Text.uppercase b.state ++ " ", (Style.ofFg b.palette.state).withBold⟩
  , ⟨(b.percent.map fun p => " " ++ gauge p).getD "", .ofFg b.palette.text⟩
  , ⟨if b.status.isEmpty then "" else " | " ++ b.status, .ofFg b.palette.text⟩ ]

/-- The bar in so many columns. -/
def line (b : StatusBar) (width : Nat) : Line :=
  let padding := width - (Line.width b.front + Text.width b.notes)
  b.front ++ [⟨"".pushn ' ' padding, {}⟩, ⟨b.notes, .ofFg b.palette.warning⟩]

/-- Draws the bar. -/
def draw (b : StatusBar) (area : Rect) (c : Canvas) : Canvas :=
  ({ lines := [b.line area.width] } : Paragraph).draw area
    (c.restyle area (.ofBg b.palette.background))

end StatusBar

end InstallerBrowser
