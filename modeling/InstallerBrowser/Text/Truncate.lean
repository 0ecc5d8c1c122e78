import InstallerBrowser.Text.Width

/-!
# InstallerBrowser.Text.Truncate

Shortening a text to a number of columns.

A text that fits is left alone. A longer one keeps its two ends (`truncateMiddle`) or only its
end (`truncatePath`), with an ellipsis in place of the rest where there is room for it. Whether a
text fits is decided by its width as a text, what is kept by the widths of single characters.
-/

namespace InstallerBrowser.Text

/-- What stands for the part that is left out. -/
def ellipsis : List Char := ['.', '.', '.']

/-- The longest front part whose characters take no more than `limit` columns. -/
def takeWidth (limit : Nat) : List Char → List Char
  | [] => []
  | c :: cs => if charWidth c ≤ limit then c :: takeWidth (limit - charWidth c) cs else []

/-- The longest end part whose characters take no more than `limit` columns. -/
def takeWidthRight (limit : Nat) (cs : List Char) : List Char :=
  (takeWidth limit cs.reverse).reverse

/-- Shortens a text in its middle. -/
def truncateMiddle (s : String) (limit : Nat) : String :=
  if limit = 0 then ""
  else if width s ≤ limit then s
  else if limit < 5 then String.ofList (takeWidth limit s.toList)
  else
    let side := (limit - 3) / 2
    String.ofList (takeWidth side s.toList ++ ellipsis ++ takeWidthRight side s.toList)

/-- Shortens a text at its front. -/
def truncatePath (s : String) (limit : Nat) : String :=
  if limit = 0 then ""
  else if width s ≤ limit then s
  else if limit ≤ 3 then String.ofList (takeWidthRight limit s.toList)
  else String.ofList (ellipsis ++ takeWidthRight (limit - 3) s.toList)

end InstallerBrowser.Text
