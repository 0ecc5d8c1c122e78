import InstallerBrowser.Dialog.LineEdit
import InstallerBrowser.Text.Width

/-!
# InstallerBrowser.Dialog.InputField

The part of a line that an input field shows.

The line is shown from its start while the cursor fits into the field. Otherwise it is shown from
the first character on that leaves the cursor in the last column of the field.
-/

namespace InstallerBrowser

/-- The columns of some characters. -/
def Text.columns (cs : List Char) : Nat := cs.foldr (fun c n => charWidth c + n) 0

namespace InputField

/-- What a field shows of a line, and the column of the cursor. -/
structure View where
  shown : List Char
  column : Nat
deriving Repr, DecidableEq

/-- Leaves out characters until so many columns are left out: how many that were, and the rest. -/
def skipColumns : Nat → List Char → Nat × List Char
  | 0, cs => (0, cs)
  | _, [] => (0, [])
  | n + 1, c :: cs =>
    let (skipped, rest) := skipColumns (n + 1 - Text.charWidth c) cs
    (Text.charWidth c + skipped, rest)

/-- What a field of so many columns shows of a line. A cursor inside of a character has no place,
and neither has one that a wide character pushed out of the field. -/
def view? (line : LineEdit) (limit : Nat) : Option View := do
  let (before, after) ← line.clamp.halves?
  let column := Text.columns before
  if column < limit then some { shown := before ++ after, column }
  else
    let (skipped, rest) := skipColumns (column + 1 - limit) (before ++ after)
    if skipped ≤ column then some { shown := rest, column := column - skipped } else none

end InputField

end InstallerBrowser
