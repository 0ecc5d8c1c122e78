import InstallerBrowser.Screen.Frame
import InstallerBrowser.Screen.Layout
import InstallerBrowser.Screen.Paragraph
import InstallerBrowser.Screen.Theme

/-!
# InstallerBrowser.Panel.Warning

What is shown on a screen that is too small for the panels: its size and the size that is needed.
An extraction that is running is told of, so that it is not lost from sight.
-/

namespace InstallerBrowser

namespace WarningPanel

/-- The colors of the panel. -/
structure Palette where
  background : Color := .rgb 30 30 30
  text : Color := .rgb 212 212 212
  warning : Color := .yellow
  /-- The color of a size that is too small. -/
  short : Color := .red
  /-- The color of a size that will do. -/
  enough : Color := .green
deriving Repr, DecidableEq

/-- The colors of the panel in a theme. -/
def Palette.ofTheme (t : Theme) : Palette :=
  { background := t.bgPrimary, text := t.fgPrimary, warning := t.warning
    short := t.error, enough := t.success }

end WarningPanel

/-- What the panel shows. -/
structure WarningPanel where
  width : Nat
  height : Nat
  /-- What is going on. -/
  activity : Option String := none
  palette : WarningPanel.Palette := {}
deriving Repr

namespace WarningPanel

/-- A side of the screen. -/
def side (p : WarningPanel) (value needed : Nat) : Span :=
  ⟨toString value,
    (Style.ofFg (if value < needed then p.palette.short else p.palette.enough)).withBold⟩

/-- The lines of the panel. -/
def lines (p : WarningPanel) : List Line :=
  let label : Style := .ofFg p.palette.text
  [ [⟨"Window too small", (Style.ofFg p.palette.warning).withBold⟩]
  , []
  , [ ⟨"Now: ", label⟩, p.side p.width Layout.minWidth
    , ⟨"x", label⟩, p.side p.height Layout.minHeight ]
  , [⟨"Need: " ++ toString Layout.minWidth ++ "x" ++ toString Layout.minHeight, label⟩] ] ++
  (match p.activity with
  | some activity => [[], [⟨activity, .ofFg p.palette.warning⟩]]
  | none => [])

/-- The frame of the panel. -/
def frame (p : WarningPanel) : Frame :=
  { border := .ofFg p.palette.warning, background := .ofBg p.palette.background }

/-- Draws the panel. -/
def draw (p : WarningPanel) (area : Rect) (c : Canvas) : Canvas :=
  let text : Paragraph :=
    { lines := p.lines, alignment := .center, overflow := .wrap false }
  text.draw area.inside (p.frame.draw area (c.restyle area (.ofBg p.palette.background)))

end WarningPanel

end InstallerBrowser
