import InstallerBrowser.Log
import InstallerBrowser.Screen.Frame
import InstallerBrowser.Screen.Theme

/-!
# InstallerBrowser.Panel.Log

The panel of the log: the latest lines, or how many lines are buffered.
-/

namespace InstallerBrowser

/-- What the panel shows. -/
structure LogPanel where
  lines : List LogLine
  mode : LogMode := .live
  /-- How many lines are buffered, as far as the screen knows. -/
  count : Nat := 0
  theme : Theme := .dark
deriving Repr

namespace LogPanel

/-- The frame of the panel. -/
def frame (p : LogPanel) : Frame :=
  { border := .ofFg p.theme.panelInactiveBorder
    background := .ofBg p.theme.panelBg
    title :=
      { text :=
          match p.mode with
          | .live => " Log "
          | .buffered => " Log [buffered: " ++ toString p.count ++ "] "
        style := .ofFg p.theme.fgPrimary } }

/-- The color of a level. -/
def levelColor (p : LogPanel) : LogLevel → Color
  | .info => p.theme.fgPrimary
  | .debug => p.theme.muted
  | .error => p.theme.error

/-- The rows of the panel, at most so many. -/
def rows (p : LogPanel) (height : Nat) : List Line :=
  match p.mode with
  | .buffered =>
    [ [ ⟨" " ++ toString p.count ++ " ", (Style.ofFg p.theme.accent).withBold⟩
      , ⟨"lines collected", .ofFg p.theme.fgPrimary⟩ ]
    , [⟨" press w to save the log file", .ofFg p.theme.muted⟩] ].take height
  | .live =>
    (Log.keepLast height p.lines).map fun l =>
      [⟨" " ++ l.format, .ofFg (p.levelColor l.level)⟩]

/-- Draws the panel. -/
def draw (p : LogPanel) (area : Rect) (c : Canvas) : Canvas :=
  if area.isEmpty then c
  else
    let inner := area.inside
    (p.rows inner.height).zipIdx.foldl (fun c (line, i) =>
      c.putLine (inner.y + i) line inner.x inner.width) (p.frame.draw area c)

end LogPanel

end InstallerBrowser
