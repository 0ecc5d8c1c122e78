import InstallerBrowser.Installer.Entry
import InstallerBrowser.Screen.Frame
import InstallerBrowser.Screen.Theme
import InstallerBrowser.Text.Truncate

/-!
# InstallerBrowser.Panel.Info

The panel of what the installer says about itself.
-/

namespace InstallerBrowser

/-- What the panel shows. -/
structure InfoPanel where
  metadata : Option Metadata
  language : Option Language := none
  /-- Whether an installer is being loaded. -/
  loading : Bool := false
  theme : Theme := .dark
deriving Repr

namespace InfoPanel

/-- The frame of the panel. -/
def frame (p : InfoPanel) : Frame :=
  { border := .ofFg p.theme.panelInactiveBorder
    background := .ofBg p.theme.panelBg
    title := ⟨" Info ", .ofFg p.theme.fgPrimary⟩ }

/-- A line with a label and a value. -/
def field (p : InfoPanel) (width : Nat) (label value : String) : Line :=
  [ ⟨" " ++ label, .ofFg p.theme.muted⟩
  , ⟨Text.truncateMiddle value (width - (label.utf8ByteSize + 1)), .ofFg p.theme.fgPrimary⟩ ]

/-- The language that is selected, and its place among all. -/
def languageText (p : InfoPanel) (m : Metadata) : String :=
  let total := toString m.languages.length
  match p.language with
  | some l =>
    let place :=
      match m.languages.findIdx? (· == l) with
      | some i => i + 1
      | none => 0
    l.displayName ++ " (" ++ toString place ++ "/" ++ total ++ ")"
  | none => "- (0/" ++ total ++ ")"

/-- The lines of a description in so many columns. -/
def describe (p : InfoPanel) (width : Nat) (m : Metadata) : List Line :=
  [ [⟨" " ++ Text.truncateMiddle m.name (width - 1), (Style.ofFg p.theme.accent).withBold⟩]
  , p.field width "(c)   " m.copyrights
  , p.field width "Size  " (toString m.size ++ " MB")
  , p.field width "Files " (toString m.fileCount) ] ++
  (if m.hasLanguageChoice then [p.field width "Lang  " (p.languageText m)] else [])

/-- The lines of the panel in so many columns. -/
def lines (p : InfoPanel) (width : Nat) : List Line :=
  match p.loading, p.metadata with
  | true, _ => [[⟨" Loading...", .ofFg p.theme.muted⟩]]
  | false, some m => p.describe width m
  | false, none => [[⟨" No installer loaded", .ofFg p.theme.muted⟩]]

/-- Draws the panel. -/
def draw (p : InfoPanel) (area : Rect) (c : Canvas) : Canvas :=
  if area.isEmpty then c
  else
    let inner := area.inside
    let c := p.frame.draw area c
    ((p.lines inner.width).take inner.height).zipIdx.foldl (fun c (line, i) =>
      c.putLine (inner.y + i) line inner.x inner.width) c

end InfoPanel

end InstallerBrowser
