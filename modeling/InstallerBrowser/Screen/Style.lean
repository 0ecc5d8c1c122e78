import InstallerBrowser.Screen.Color

/-!
# InstallerBrowser.Screen.Style

Styles and cells.

A style says some of what there is to say about the look of a cell and leaves the rest as it is.
-/

namespace InstallerBrowser

/-- What is to change in the look of a cell. -/
structure Style where
  fg : Option Color := none
  bg : Option Color := none
  bold : Bool := false
  reversed : Bool := false
deriving Repr, DecidableEq, Inhabited

namespace Style

/-- A style for the foreground. -/
def ofFg (c : Color) : Style := { fg := some c }

/-- A style for the background. -/
def ofBg (c : Color) : Style := { bg := some c }

/-- A style with another foreground. -/
def withFg (s : Style) (c : Color) : Style := { s with fg := some c }

/-- A style with another background. -/
def withBg (s : Style) (c : Color) : Style := { s with bg := some c }

/-- A style in bold type. -/
def withBold (s : Style) : Style := { s with bold := true }

/-- A style with foreground and background exchanged. -/
def withReversed (s : Style) : Style := { s with reversed := true }

/-- One style over another. -/
def onto (top base : Style) : Style :=
  { fg := top.fg.or base.fg, bg := top.bg.or base.bg
    bold := top.bold || base.bold, reversed := top.reversed || base.reversed }

end Style

/-- One cell of a screen. -/
structure Cell where
  symbol : String := " "
  fg : Color := .reset
  bg : Color := .reset
  bold : Bool := false
  reversed : Bool := false
deriving Repr, DecidableEq, Inhabited

/-- A cell with a style put over its look. -/
def Cell.restyle (c : Cell) (s : Style) : Cell :=
  { c with
    fg := s.fg.getD c.fg
    bg := s.bg.getD c.bg
    bold := c.bold || s.bold
    reversed := c.reversed || s.reversed }

end InstallerBrowser
