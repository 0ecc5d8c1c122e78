/-!
# InstallerBrowser.Text.Lines

The lines of a text.

A line ends with a line feed or with a carriage return and a line feed; the last line may do
without. A text that ends with a line feed has no further line.
-/

namespace InstallerBrowser.Text

/-- The lines of some characters, without their ends. -/
def listLines : List Char → List (List Char)
  | [] => []
  | '\n' :: cs => [] :: listLines cs
  | '\r' :: '\n' :: cs => [] :: listLines cs
  | c :: cs =>
    match listLines cs with
    | [] => [[c]]
    | line :: rest => (c :: line) :: rest

/-- The lines of a text, without their ends. -/
def lines (s : String) : List String := (listLines s.toList).map String.ofList

end InstallerBrowser.Text
