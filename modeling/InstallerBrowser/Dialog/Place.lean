import InstallerBrowser.Dialog.Basic
import InstallerBrowser.Options.Basic
import InstallerBrowser.Screen.Rect
import InstallerBrowser.Text.Lines
import InstallerBrowser.Text.Width

/-!
# InstallerBrowser.Dialog.Place

Where a dialog stands: in the middle of the screen, two cells from its sides at least.

The height of a message follows from its lines, each of which is taken to fill its rows to the
last column. Heights are told in 16 bits: of the number of rows as many are kept, and a dialog
whose height does not fit into them has no place.
-/

namespace InstallerBrowser.Dialog

/-- The columns between the side of a dialog and its text, its border among them. -/
def sidePadding : Nat := 2

/-- The rows between the top of a dialog and its text. -/
def topPadding : Nat := 1

/-- A number moved into a range. -/
def clampTo (least most n : Nat) : Nat := max least (min most n)

/-- The most columns, or rows, of a screen that a dialog takes. -/
def most (side : Nat) : Nat := side - 4

/-- The rows that a line of a message is taken to need in so many columns. -/
def lineRows (width : Nat) (line : String) : Nat := max 1 ((Text.width line + width - 1) / width)

/-- The rows that a message is taken to need in so many columns. -/
def messageRows (text : String) (width : Nat) : Nat :=
  max 1 ((Text.lines text).foldr (fun line rows => lineRows width line + rows) 0)

/-- The numbers that a height can be. -/
def heightBound : Nat := Nat.pow 2 16

/-- The rows that a message in so many columns asks for with its frame and its button. -/
def messageHeight? (text : String) (width : Nat) : Option Nat :=
  let height := 5 + messageRows text width % heightBound
  if height < heightBound then some height else none

/-- The columns for the text of a dialog that is so many columns wide. -/
def textWidth (width : Nat) : Nat := width - 2 * sidePadding

/-- The columns and rows that a dialog asks for. -/
def wantedSize? (d : Dialog) (screen : Rect) : Option (Nat × Nat) :=
  let narrow (wish least : Nat) : Nat := max least (min wish (most screen.width))
  let around (text : String) : Option (Nat × Nat) :=
    let width := narrow 56 30
    (messageHeight? text (max 1 (textWidth width))).map fun height =>
      (width, max 6 (min height (most screen.height)))
  match d with
  | .input .. => some (clampTo 50 100 (screen.width * 3 / 5), 7)
  | .confirm .. => some (narrow 48 30, 8)
  | .options _ => some (narrow 56 40, OptionField.all.length + 7)
  | .error _ text => around text
  | .message _ text => around text
  | .help _ => some (narrow 60 40, max 15 (screen.height - 6))

/-- The place of a dialog. -/
def area? (d : Dialog) (screen : Rect) : Option Rect :=
  (d.wantedSize? screen).map fun (width, height) =>
    screen.centered (min width (most screen.width)) (min height (most screen.height))

/-- The place of the text of a dialog. -/
def textArea (area : Rect) : Rect :=
  { x := area.x + sidePadding, y := area.y + topPadding
    width := textWidth area.width, height := area.height - 2 * topPadding }

end InstallerBrowser.Dialog
