import InstallerBrowser.Action.Registry
import InstallerBrowser.Dialog.InputField
import InstallerBrowser.Dialog.Place
import InstallerBrowser.Panel.Window
import InstallerBrowser.Screen.Frame
import InstallerBrowser.Screen.Paragraph
import InstallerBrowser.Screen.Theme

/-!
# InstallerBrowser.Panel.Dialog

The panel of a dialog, over the middle of the screen.

Buttons and hints stand in the row above the lower border. A screen on which a dialog would be
less than four cells wide or high shows none, and one without a place cannot be drawn.
-/

namespace InstallerBrowser

namespace DialogPanel

/-- The colors of the panel. -/
structure Palette where
  text : Color := .rgb 212 212 212
  border : Color := .rgb 0 120 212
  title : Color := .rgb 0 120 212
  buttonBg : Color := .rgb 60 60 60
  buttonFg : Color := .rgb 212 212 212
  selectedBg : Color := .rgb 0 120 212
  selectedFg : Color := .white
  field : Color := .rgb 30 30 30
  warning : Color := .rgb 255 165 0
  error : Color := .rgb 244 71 71
  muted : Color := .rgb 128 128 128
deriving Repr, DecidableEq

/-- The colors of the panel in a theme. -/
def Palette.ofTheme (t : Theme) : Palette :=
  { text := t.fgPrimary, border := t.panelActiveBorder, title := t.accent
    buttonBg := t.commandBarBg, buttonFg := t.fgPrimary
    selectedBg := t.rowSelectedBg, selectedFg := t.rowSelected
    field := t.bgPrimary, warning := t.warning, error := t.error, muted := t.muted }

/-- The background of the panel, in all themes. -/
def background : Color := .rgb 45 45 48

end DialogPanel

/-- What the panel shows. -/
structure DialogPanel where
  dialog : Dialog
  options : Options := {}
  reloadNeeded : Bool := false
  palette : DialogPanel.Palette := {}
deriving Repr

namespace DialogPanel

/-! ## Parts -/

/-- The frame of the panel, its border and its title in one color if that is given. -/
def frame (p : DialogPanel) (title : String) (color : Option Color) : Frame :=
  { border := .ofFg (color.getD p.palette.border)
    background := .ofBg background
    title := { text := " " ++ title ++ " " }
    titleBase := (Style.ofFg (color.getD p.palette.title)).withBold }

/-- The row of the buttons. -/
def buttonRow (area : Rect) : Nat := area.y + (area.height - 2)

/-- The column at which something of a width stands in the middle. -/
def middle (area : Rect) (width : Nat) : Nat := area.x + (area.width - width) / 2

/-- The text of a button. -/
def buttonText (label : String) : String := " " ++ label ++ " "

/-- Draws a button. -/
def drawButton (p : DialogPanel) (x y : Nat) (label : String) (selected : Bool) (c : Canvas) :
    Canvas :=
  let fg := if selected then p.palette.selectedFg else p.palette.buttonFg
  let bg := if selected then p.palette.selectedBg else p.palette.buttonBg
  let text := buttonText label
  let c := c.putText x y text ((Style.ofFg fg).withBg bg)
  (List.range (Text.width text)).foldl (fun c i => c.modify (x + i) y (·.restyle (.ofBg bg))) c

/-- Draws two buttons, one of which is chosen. -/
def drawButtons (p : DialogPanel) (area : Rect) (chosen : DialogButton) (c : Canvas) : Canvas :=
  let okWidth := Text.width (buttonText "OK")
  let cancelWidth := Text.width (buttonText "Cancel")
  let x := middle area (okWidth + 2 + cancelWidth)
  let y := buttonRow area
  p.drawButton (x + okWidth + 2) y "Cancel" (chosen == .cancel)
    (p.drawButton x y "OK" (chosen == .ok) c)

/-- Draws a hint in the row of the buttons. -/
def drawHint (p : DialogPanel) (area : Rect) (hint : String) (c : Canvas) : Canvas :=
  c.putText (middle area (Text.width hint)) (buttonRow area) hint (.ofFg p.palette.muted)

/-- A text whose lines are broken between words. -/
def wrapped (p : DialogPanel) (text : String) : Paragraph :=
  { lines := (Text.lines text).map fun line => [⟨line, {}⟩]
    style := .ofFg p.palette.text, overflow := .wrap true }

/-! ## Dialogs -/

/-- Draws the cursor of an input field into its cell: a bar behind the end of the line, the other
way round over a character. -/
def drawCursor (p : DialogPanel) (x y : Nat) (atEnd : Bool) (c : Canvas) : Canvas :=
  c.modify x y fun cell =>
    if atEnd then
      { cell with symbol := "▏" }.restyle ((Style.ofFg p.palette.text).withBg p.palette.field)
    else cell.restyle ((Style.ofFg p.palette.field).withBg p.palette.text)

/-- Draws an input field of so many columns. -/
def drawField (p : DialogPanel) (x y width : Nat) (line : LineEdit) (c : Canvas) : Canvas :=
  let c := (List.range width).foldl (fun c i =>
    c.modify (x + i) y (·.restyle (.ofBg p.palette.field))) c
  let limit := max 1 (width - 2)
  match InputField.view? line limit with
  | none => c.spoil
  | some view =>
    let style := (Style.ofFg p.palette.text).withBg p.palette.field
    let c := (c.drawText (x + 1) y (String.ofList view.shown) limit style).1
    let cursorX := x + 1 + view.column
    if cursorX < x + (width - 1) then
      p.drawCursor cursorX y (line.text.utf8ByteSize ≤ line.cursor) c
    else c

/-- Draws a dialog that takes text. -/
def drawInput (p : DialogPanel) (area : Rect) (title prompt : String) (line : LineEdit)
    (button : DialogButton) (c : Canvas) : Canvas :=
  let inner := Dialog.textArea area
  let c := (p.frame title none).draw area c
  let c := c.putText inner.x inner.y prompt (.ofFg p.palette.text)
  p.drawButtons area button (p.drawField inner.x (inner.y + 1) inner.width line c)

/-- Draws a question. -/
def drawConfirm (p : DialogPanel) (area : Rect) (title message : String) (button : DialogButton)
    (c : Canvas) : Canvas :=
  let inner := Dialog.textArea area
  let c := (p.frame title (some p.palette.warning)).draw area c
  p.drawButtons area button
    ((p.wrapped message).draw { inner with height := inner.height - 2 } c)

/-- The row of an option in so many columns. -/
def optionText (p : DialogPanel) (width : Nat) (field : OptionField) (selected : Bool) : String :=
  let labelWidth := ((OptionField.all.map fun f => Text.width f.label).max?.getD 0) + 2
  let text := (if selected then "> " else "  ") ++ field.label ++
    "".pushn ' ' (labelWidth - field.label.length) ++ field.valueLabel p.options
  text ++ "".pushn ' ' (width - Text.width text)

/-- Draws the options. -/
def drawOptions (p : DialogPanel) (area : Rect) (selected : Nat) (c : Canvas) : Canvas :=
  let inner := Dialog.textArea area
  let c := (p.frame "Extraction Options" none).draw area c
  let c := (OptionField.all.zipIdx.take inner.height).foldl (fun c (field, i) =>
    let style :=
      if i = selected then (Style.ofFg p.palette.selectedFg).withBg p.palette.selectedBg
      else .ofFg p.palette.text
    (c.drawText inner.x (inner.y + i) (p.optionText inner.width field (i == selected))
      inner.width style).1) c
  let notice := inner.y + OptionField.all.length + 1
  let c :=
    if p.reloadNeeded ∧ notice < buttonRow area then
      (c.drawText inner.x notice "Options changed: reload the installer to apply" inner.width
        (Style.ofFg p.palette.warning).withBold).1
    else c
  p.drawHint area "Space:Change  d:Defaults  j/k:Move  Esc:Close" c

/-- A row of the help. -/
inductive HelpRow where
  | heading (text : String)
  | item (key words : String)
  | blank
deriving Repr, DecidableEq

/-- The rows of the help, with a blank one between two categories. -/
def helpRows : List HelpRow :=
  (Action.helpEntries.map fun (category, items) =>
    .heading category :: items.map fun (key, words) => .item key words).intersperse [.blank]
    |>.flatten

/-- Draws a row of the help. -/
def drawHelpRow (p : DialogPanel) (x y : Nat) (row : HelpRow) (c : Canvas) : Canvas :=
  match row with
  | .heading text => c.putText x y text (Style.ofFg p.palette.title).withBold
  | .item key words =>
    (c.putText (x + 2) y key (.ofFg p.palette.title)).putText (x + 16) y words
      (.ofFg p.palette.text)
  | .blank => c

/-- Draws the help. -/
def drawHelp (p : DialogPanel) (area : Rect) (scroll : Nat) (c : Canvas) : Canvas :=
  let inner := Dialog.textArea area
  let height := area.height - 4
  let c := (p.frame "Keyboard Shortcuts" none).draw area c
  let c := (Panel.window helpRows scroll height).zipIdx.foldl (fun c ((_, row), i) =>
    p.drawHelpRow inner.x (inner.y + i) row c) c
  let bar : Panel.Scrollbar := { count := helpRows.length, height, first := scroll }
  let c := bar.draw (area.right - 2) inner.y p.palette.buttonBg p.palette.muted c
  p.drawHint area "Esc/?:Close  j/k:Scroll" c

/-- Draws a message. -/
def drawMessage (p : DialogPanel) (area : Rect) (title message : String) (color : Option Color)
    (c : Canvas) : Canvas :=
  let inner := { Dialog.textArea area with height := area.height - 4 }
  let c := (p.wrapped message).draw inner ((p.frame title color).draw area c)
  p.drawButton (middle area (Text.width (buttonText "OK"))) (buttonRow area) "OK" true c

/-- Draws the dialog into its place. -/
def drawIn (p : DialogPanel) (area : Rect) (c : Canvas) : Canvas :=
  if area.width < 4 ∨ area.height < 4 then c
  else
    let c := c.clear area
    match p.dialog with
    | .input title prompt line button => p.drawInput area title prompt line button c
    | .confirm title message button _ => p.drawConfirm area title message button c
    | .options selected => p.drawOptions area selected c
    | .error title message => p.drawMessage area title message (some p.palette.error) c
    | .message title message => p.drawMessage area title message none c
    | .help scroll => p.drawHelp area scroll c

/-- Draws the panel. -/
def draw (p : DialogPanel) (screen : Rect) (c : Canvas) : Canvas :=
  match p.dialog.area? screen with
  | none => c.spoil
  | some area => p.drawIn area c

end DialogPanel

end InstallerBrowser
