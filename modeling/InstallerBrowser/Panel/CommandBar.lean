import InstallerBrowser.Screen.Paragraph
import InstallerBrowser.Screen.Theme

/-!
# InstallerBrowser.Panel.CommandBar

The command bar: the keys of the most important actions.

Items stand in the order of their importance. The first one that does not fit is left out with
all that follow it.
-/

namespace InstallerBrowser

namespace CommandBar

/-- A key and what it does. -/
structure Item where
  key : String
  label : String
  enabled : Bool := true
deriving Repr, DecidableEq, Inhabited

/-- The columns of an item. -/
def Item.width (i : Item) : Nat := Text.width i.key + 1 + Text.width i.label

/-- The colors of the bar. -/
structure Palette where
  background : Color := .rgb 30 30 30
  key : Color := .rgb 0 120 212
  label : Color := .rgb 212 212 212
  disabled : Color := .rgb 100 100 100
deriving Repr, DecidableEq

/-- The colors of the bar in a theme. -/
def Palette.ofTheme (t : Theme) : Palette :=
  { background := t.commandBarBg, key := t.accent
    label := t.commandBarFg, disabled := t.muted }

end CommandBar

/-- What the bar shows. -/
structure CommandBar where
  items : List CommandBar.Item
  palette : CommandBar.Palette := {}
deriving Repr

namespace CommandBar

/-- An item. -/
def itemLine (b : CommandBar) (i : Item) : Line :=
  let key : Style :=
    if i.enabled then (Style.ofFg b.palette.key).withBold else .ofFg b.palette.disabled
  let label : Style := .ofFg (if i.enabled then b.palette.label else b.palette.disabled)
  [⟨i.key, key⟩, ⟨":", label⟩, ⟨i.label, label⟩]

/-- The items that fit behind so many columns, a blank between two of them. -/
def fitting (b : CommandBar) (limit : Nat) : Nat → List Item → Line
  | _, [] => []
  | used, i :: rest =>
    let gap := if 1 < used then 1 else 0
    let used := used + gap + i.width
    if limit < used then []
    else [⟨"".pushn ' ' gap, {}⟩] ++ b.itemLine i ++ b.fitting limit used rest

/-- The bar in so many columns. -/
def line (b : CommandBar) (width : Nat) : Line := ⟨" ", {}⟩ :: b.fitting width 1 b.items

/-- Draws the bar. -/
def draw (b : CommandBar) (area : Rect) (c : Canvas) : Canvas :=
  ({ lines := [b.line area.width] } : Paragraph).draw area
    (c.restyle area (.ofBg b.palette.background))

end CommandBar

end InstallerBrowser
