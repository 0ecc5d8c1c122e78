import InstallerBrowser.Measure
import InstallerBrowser.Panel.Window
import InstallerBrowser.Queue
import InstallerBrowser.Screen.Frame
import InstallerBrowser.Screen.Theme
import InstallerBrowser.Text.Truncate

/-!
# InstallerBrowser.Panel.Queue

The panel of the files that wait.

A row shows the name of a file and its size in megabytes, and a star for the file that is loaded.
-/

namespace InstallerBrowser

/-- What the panel shows. -/
structure QueuePanel where
  files : List QueuedFile
  selected : Option Nat := none
  scroll : Nat := 0
  /-- Whether keys go to the panel. -/
  active : Bool := false
  /-- The path of the file that is loaded. -/
  loaded : Option String := none
  theme : Theme := .dark
deriving Repr

namespace QueuePanel

/-- The frame of the panel. -/
def frame (p : QueuePanel) : Frame :=
  let title : Style := .ofFg p.theme.fgPrimary
  { border := .ofFg (if p.active then p.theme.panelActiveBorder else p.theme.panelInactiveBorder)
    background := .ofBg p.theme.panelBg
    title :=
      { text := " Installers (" ++ toString p.files.length ++ ") "
        style := if p.active then title.withBold else title } }

/-- The files that are shown in so many rows, with their numbers. -/
def shown (p : QueuePanel) (height : Nat) : List (Nat × QueuedFile) :=
  Panel.window p.files p.scroll height

/-- Whether a file is the one that is loaded. -/
def isLoaded (p : QueuePanel) (f : QueuedFile) : Bool :=
  match p.loaded with
  | some path => Path.same path f.path
  | none => false

/-- The row of a file in so many columns. -/
def row (p : QueuePanel) (width : Nat) (i : Nat) (f : QueuedFile) : Line :=
  let isCursor := p.selected == some i
  let isLoaded := p.isLoaded f
  let base : Style :=
    if isCursor && p.active then
      (Style.ofFg p.theme.rowSelected).withBg p.theme.rowSelectedBg
    else if isCursor then (Style.ofFg p.theme.fgPrimary).withReversed
    else .ofFg p.theme.fgPrimary
  let marker := if isLoaded && !isCursor then base.withFg p.theme.checked else base
  let sizeStyle := if isCursor then base else base.withFg p.theme.muted
  let size := " " ++ Measure.sizeInMegabytes f.size
  let nameWidth := width - (2 + Text.width size)
  let name := Text.truncateMiddle f.name nameWidth
  [ ⟨if isLoaded then "*" else " ", marker⟩
  , ⟨" ", base⟩
  , ⟨name, base⟩
  , ⟨"".pushn ' ' (nameWidth - Text.width name), base⟩
  , ⟨size, sizeStyle⟩ ]

/-- Draws the panel. -/
def draw (p : QueuePanel) (area : Rect) (c : Canvas) : Canvas :=
  if area.isEmpty then c
  else
    let inner := area.inside
    let c := p.frame.draw area c
    if inner.height = 0 then c
    else if p.files.isEmpty then
      c.putLine inner.y [⟨" (No files, press o to add)", .ofFg p.theme.muted⟩] inner.x inner.width
    else
      (p.shown inner.height).zipIdx.foldl (fun c ((i, f), y) =>
        c.putLine (inner.y + y) (p.row inner.width i f) inner.x inner.width) c

end QueuePanel

end InstallerBrowser
