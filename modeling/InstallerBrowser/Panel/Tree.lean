import InstallerBrowser.Panel.Window
import InstallerBrowser.Screen.Frame
import InstallerBrowser.Screen.Theme
import InstallerBrowser.Text.Truncate
import InstallerBrowser.Tree.Selection

/-!
# InstallerBrowser.Panel.Tree

The panel of the tree.

A row is set in by the depth of its node and shows a sign for open and closed nodes, a box with
the state of the node, its name, and its languages at the right.
-/

namespace InstallerBrowser

/-- What the panel shows. -/
structure TreePanel where
  rows : List TreeRow
  title : String := "Contents"
  cursor : Nat := 0
  scroll : Nat := 0
  /-- Whether keys go to the panel. -/
  active : Bool := false
  /-- What is shown in place of a tree without rows. -/
  placeholder : String := "No installer loaded"
  theme : Theme := .dark
deriving Repr

namespace TreePanel

/-- The frame of the panel in so many columns. -/
def frame (p : TreePanel) (width : Nat) : Frame :=
  let title : Style := .ofFg p.theme.fgPrimary
  { border := .ofFg (if p.active then p.theme.panelActiveBorder else p.theme.panelInactiveBorder)
    background := .ofBg p.theme.panelBg
    title :=
      { text := " " ++ Text.truncateMiddle p.title (width - 4) ++ " "
        style := if p.active then title.withBold else title } }

/-- The rows that are shown in so many rows of the screen, with their numbers. -/
def shown (p : TreePanel) (height : Nat) : List (Nat × TreeRow) :=
  Panel.window p.rows p.scroll height

/-- The box of a state. -/
def box : CheckState → String
  | .checked => "[x]"
  | .unchecked => "[ ]"
  | .partly => "[-]"

/-- The sign of a node with or without children, open or closed. -/
def expander (r : TreeRow) : String :=
  if !r.hasChildren then "  " else if r.expanded then "▾ " else "▸ "

/-- The color of the box of a state. -/
def boxColor (p : TreePanel) : CheckState → Color
  | .checked => p.theme.checked
  | .partly => p.theme.partly
  | .unchecked => p.theme.muted

/-- The languages of a row, if it has any. -/
def tag (r : TreeRow) : String :=
  match r.languages with
  | some languages => if languages = "" then "" else " (" ++ languages ++ ")"
  | none => ""

/-- A row in so many columns. -/
def row (p : TreePanel) (width : Nat) (i : Nat) (r : TreeRow) : Line :=
  let isCursor := p.active && i == p.cursor
  let base : Style :=
    if isCursor then (Style.ofFg p.theme.rowSelected).withBg p.theme.rowSelectedBg
    else .ofFg p.theme.fgPrimary
  let boxStyle := if isCursor then base else base.withFg (p.boxColor r.state)
  let tagStyle := if isCursor then base else base.withFg p.theme.muted
  let nameStyle :=
    if isCursor || r.isFile then base else (base.withFg p.theme.directory).withBold
  let front := " ".pushn ' ' (r.depth * 2) ++ expander r
  let used := Text.width front + 4
  let tag := Text.truncatePath (tag r) (min (Text.width (tag r)) ((width - used) / 2))
  let name := Text.truncateMiddle r.name (width - (used + Text.width tag))
  let padding := width - (used + Text.width name + Text.width tag)
  [ ⟨front, base⟩
  , ⟨box r.state, boxStyle⟩
  , ⟨" ", base⟩
  , ⟨name, nameStyle⟩
  , ⟨"".pushn ' ' padding, base⟩
  , ⟨tag, tagStyle⟩ ]

/-- The scrollbar of the panel in so many rows. -/
def scrollbar (p : TreePanel) (height : Nat) : Panel.Scrollbar :=
  { count := p.rows.length, height, first := p.scroll }

/-- Draws the panel. -/
def draw (p : TreePanel) (area : Rect) (c : Canvas) : Canvas :=
  if area.isEmpty then c
  else
    let inner := area.inside
    let c := (p.frame area.width).draw area c
    if inner.height = 0 then c
    else if p.rows.isEmpty then
      c.putLine inner.y [⟨" " ++ p.placeholder, .ofFg p.theme.muted⟩] inner.x inner.width
    else
      let bar := p.scrollbar inner.height
      let width := if bar.isNeeded then inner.width - 1 else inner.width
      let c := (p.shown inner.height).zipIdx.foldl (fun c ((i, r), y) =>
        c.putLine (inner.y + y) (p.row width i r) inner.x width) c
      bar.draw (inner.right - 1) inner.y p.theme.panelInactiveBorder p.theme.muted c

end TreePanel

end InstallerBrowser
