import InstallerBrowser.Screen.Color
import InstallerBrowser.Toml.Decode

/-!
# InstallerBrowser.Screen.Theme

The colors of the screen, by their use.

A theme can be given as a table with one text per color; colors that are not given keep those of
the dark theme.
-/

namespace InstallerBrowser

/-- The colors in use. -/
structure Theme where
  bgPrimary : Color := .rgb 0x1e 0x1e 0x1e
  fgPrimary : Color := .rgb 0xd4 0xd4 0xd4
  panelActiveBorder : Color := .rgb 0x00 0x78 0xd4
  panelInactiveBorder : Color := .rgb 0x3c 0x3c 0x3c
  panelBg : Color := .rgb 0x1e 0x1e 0x1e
  rowSelected : Color := .rgb 0xff 0xff 0xff
  rowSelectedBg : Color := .rgb 0x00 0x78 0xd4
  directory : Color := .rgb 0x56 0x9c 0xd6
  checked : Color := .rgb 0x4e 0xc9 0xb0
  partly : Color := .rgb 0xdc 0xdc 0xaa
  statusBarBg : Color := .rgb 0x00 0x7a 0xcc
  statusBarFg : Color := .rgb 0xff 0xff 0xff
  commandBarBg : Color := .rgb 0x2d 0x2d 0x30
  commandBarFg : Color := .rgb 0xcc 0xcc 0xcc
  accent : Color := .rgb 0x00 0x78 0xd4
  warning : Color := .rgb 0xff 0xa5 0x00
  error : Color := .rgb 0xf4 0x47 0x47
  success : Color := .rgb 0x64 0xb4 0x64
  muted : Color := .rgb 0x80 0x80 0x80
deriving Repr, DecidableEq, Inhabited

namespace Theme

/-- The theme that is used unless another is given. -/
def dark : Theme := {}

/-- The color that a text of a table stands for. -/
def colorOfToml (v : Toml) : Option Color := (Toml.asString v).map Color.ofText

/-- A color of the theme under its name in a table. -/
def field (name : String) (put : Color → Theme → Theme) : Toml.Field Theme :=
  .named name colorOfToml put

/-- The colors of a theme in their order. -/
def fields : List (Toml.Field Theme) :=
  [ field "bg_primary" fun c t => { t with bgPrimary := c }
  , field "fg_primary" fun c t => { t with fgPrimary := c }
  , field "panel_active_border" fun c t => { t with panelActiveBorder := c }
  , field "panel_inactive_border" fun c t => { t with panelInactiveBorder := c }
  , field "panel_bg" fun c t => { t with panelBg := c }
  , field "row_selected" fun c t => { t with rowSelected := c }
  , field "row_selected_bg" fun c t => { t with rowSelectedBg := c }
  , field "directory" fun c t => { t with directory := c }
  , field "checked" fun c t => { t with checked := c }
  , field "partial" fun c t => { t with partly := c }
  , field "status_bar_bg" fun c t => { t with statusBarBg := c }
  , field "status_bar_fg" fun c t => { t with statusBarFg := c }
  , field "command_bar_bg" fun c t => { t with commandBarBg := c }
  , field "command_bar_fg" fun c t => { t with commandBarFg := c }
  , field "accent" fun c t => { t with accent := c }
  , field "warning" fun c t => { t with warning := c }
  , field "error" fun c t => { t with error := c }
  , field "success" fun c t => { t with success := c }
  , field "muted" fun c t => { t with muted := c } ]

/-- The colors of a theme under their names. -/
def colors (t : Theme) : List (String × Color) :=
  [ ("bg_primary", t.bgPrimary)
  , ("fg_primary", t.fgPrimary)
  , ("panel_active_border", t.panelActiveBorder)
  , ("panel_inactive_border", t.panelInactiveBorder)
  , ("panel_bg", t.panelBg)
  , ("row_selected", t.rowSelected)
  , ("row_selected_bg", t.rowSelectedBg)
  , ("directory", t.directory)
  , ("checked", t.checked)
  , ("partial", t.partly)
  , ("status_bar_bg", t.statusBarBg)
  , ("status_bar_fg", t.statusBarFg)
  , ("command_bar_bg", t.commandBarBg)
  , ("command_bar_fg", t.commandBarFg)
  , ("accent", t.accent)
  , ("warning", t.warning)
  , ("error", t.error)
  , ("success", t.success)
  , ("muted", t.muted) ]

/-- The theme of a table. -/
def ofToml (v : Toml) : Option Theme := Toml.asRecord .skipped fields dark v

end Theme

end InstallerBrowser
