import InstallerBrowser.Screen.Canvas

/-!
# InstallerBrowser.Screen.Transcript

What a screen shows, as text: for each row the symbols of its cells, and their looks.

A look is the text of the foreground and the background, and the modifiers if there are any.
Equal looks side by side are told once, with their number.
-/

namespace InstallerBrowser

/-- The look of a cell. -/
def Cell.look (c : Cell) : String :=
  let modifiers := (if c.bold then ["BOLD"] else []) ++ (if c.reversed then ["REVERSED"] else [])
  "/".intercalate ([c.fg.toText, c.bg.toText] ++
    (if modifiers.isEmpty then [] else ["+".intercalate modifiers]))

namespace Canvas

/-- The runs of equal texts: how many, and which. -/
def runs : List String → List (Nat × String)
  | [] => []
  | s :: rest =>
    match runs rest with
    | (n, t) :: more => if s = t then (n + 1, t) :: more else (1, s) :: (n, t) :: more
    | [] => [(1, s)]

/-- The symbols of each row. -/
def texts (c : Canvas) : List String :=
  c.rows.map fun row => String.join (row.map fun cell => cell.symbol)

/-- The looks of each row. -/
def looks (c : Canvas) : List String :=
  c.rows.map fun row =>
    " ".intercalate ((runs (row.map Cell.look)).map fun (n, look) => toString n ++ ":" ++ look)

end Canvas

end InstallerBrowser
