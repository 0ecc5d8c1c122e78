import InstallerBrowser.Screen.Rect
import InstallerBrowser.Screen.Style
import InstallerBrowser.Text.Grapheme
import InstallerBrowser.Text.Lines
import InstallerBrowser.Text.Width

/-!
# InstallerBrowser.Screen.Canvas

A screen while it is drawn.

Text is drawn cluster by cluster; a wide cluster stands in its first cell and blanks the cells
behind it. A text is cut where the next cluster does not fit. What is drawn outside of the screen
is lost, and marks the canvas as spoiled.
-/

namespace InstallerBrowser

/-- The cells of a screen, row by row. -/
structure Canvas where
  width : Nat
  height : Nat
  cells : Array Cell
  /-- Whether something could not be drawn. -/
  spoiled : Bool := false
deriving Repr, Inhabited

/-- A text in one style. -/
structure Span where
  text : String
  style : Style := {}
deriving Repr, DecidableEq, Inhabited

/-- A line of text. -/
abbrev Line := List Span

/-- The columns of a text. -/
def Span.width (s : Span) : Nat := Text.width s.text

/-- The columns of a line. -/
def Line.width (line : Line) : Nat := line.foldr (fun s n => s.width + n) 0

/-- A text in one style, a span for each of its lines. -/
def Span.ofLines (text : String) (style : Style) : List Span :=
  (Text.lines text).map fun line => { text := line, style }

namespace Canvas

/-- A screen of blank cells. -/
def blank (width height : Nat) : Canvas :=
  { width, height, cells := Array.replicate (width * height) {} }

/-- The whole of a screen. -/
def area (c : Canvas) : Rect := { width := c.width, height := c.height }

/-- The cell at a place. -/
def get? (c : Canvas) (x y : Nat) : Option Cell :=
  if x < c.width ∧ y < c.height then c.cells[y * c.width + x]? else none

/-- The cells, row by row. -/
def rows (c : Canvas) : List (List Cell) :=
  (List.range c.height).map fun y => (List.range c.width).map fun x => (c.get? x y).getD {}

/-- Changes the cell at a place, if there is one. -/
def modify (c : Canvas) (x y : Nat) (f : Cell → Cell) : Canvas :=
  if x < c.width ∧ y < c.height then
    { c with cells := c.cells.modify (y * c.width + x) f }
  else c

/-- A screen on which something could not be drawn. -/
def spoil (c : Canvas) : Canvas := { c with spoiled := true }

/-- Draws into the cell at a place. -/
def draw (c : Canvas) (x y : Nat) (f : Cell → Cell) : Canvas :=
  if x < c.width ∧ y < c.height then
    { c with cells := c.cells.modify (y * c.width + x) f }
  else c.spoil

/-- Draws into all cells of a rectangle. -/
def drawArea (c : Canvas) (r : Rect) (f : Cell → Cell) : Canvas :=
  r.rows.foldl (fun c y => r.columns.foldl (fun c x => c.draw x y f) c) c

/-- Puts a style over the cells of a rectangle, those on the screen. -/
def restyle (c : Canvas) (r : Rect) (s : Style) : Canvas :=
  c.drawArea (r.intersect c.area) fun cell => cell.restyle s

/-- Blanks the cells of a rectangle. -/
def clear (c : Canvas) (r : Rect) : Canvas := c.drawArea r fun _ => {}

/-- Draws a cluster that is so many columns wide. -/
def drawSymbol (c : Canvas) (x y : Nat) (symbol : String) (width : Nat) (s : Style) : Canvas :=
  let c := c.draw x y fun cell => { cell with symbol }.restyle s
  c.clear { x := x + 1, y, width := width - 1, height := 1 }

/-- Whether the cell with a number stands behind a wide symbol. -/
def isCovered (c : Canvas) (i : Nat) : Bool :=
  match i with
  | 0 => false
  | i + 1 => 1 < Text.width (c.cells.getD i {}).symbol

/-- A screen as a terminal shows it: a cell behind a wide symbol stays blank. -/
def uncovered (c : Canvas) : Canvas :=
  { c with cells := c.cells.mapIdx fun i cell => if c.isCovered i then {} else cell }

/-! ## Lines of text -/

/-- The clusters of a text that are drawn: none that holds a control character or takes no
column. -/
def drawnSymbols (text : String) : List (String × Nat) :=
  ((Text.clusters text.toList).filter fun cs => !cs.any Text.isControl).filterMap fun cs =>
    let width := Text.listWidth cs
    if width = 0 then none else some (String.ofList cs, width)

/-- Draws clusters into the columns that are left: the column behind them. -/
def drawSymbols (y : Nat) (s : Style) :
    List (String × Nat) → Nat → Nat → Canvas → Canvas × Nat
  | [], x, _, c => (c, x)
  | (symbol, width) :: rest, x, left, c =>
    if left < width then (c, x)
    else drawSymbols y s rest (x + width) (left - width) (c.drawSymbol x y symbol width s)

/-- Draws a text into at most so many columns: the column behind it. -/
def drawText (c : Canvas) (x y : Nat) (text : String) (limit : Nat) (s : Style) : Canvas × Nat :=
  drawSymbols y s (drawnSymbols text) x (min (c.width - x) limit) c

/-- Draws a text. -/
def putText (c : Canvas) (x y : Nat) (text : String) (s : Style) : Canvas :=
  (c.drawText x y text c.width s).1

/-- Draws a line from a place on, into at most so many columns. -/
def putLine (c : Canvas) (y : Nat) : Line → Nat → Nat → Canvas
  | [], _, _ => c
  | span :: rest, x, limit =>
    if limit = 0 then c
    else
      let (c, next) := c.drawText x y span.text limit span.style
      putLine c y rest next (limit - (next - x))

/-! ## Titles -/

/-- Draws the clusters of a span of a title, the first of them or not, from a column on. A cluster
that takes no column joins the cell before it. -/
def drawTitleSymbols (area : Rect) (s : Style) :
    Bool → Nat → List (String × Nat) → Canvas → Canvas
  | _, _, [], c => c
  | first, x, (symbol, width) :: rest, c =>
    if area.right < x + width then c
    else
      let put (f : String → String) (x : Nat) : Canvas :=
        c.draw x area.y fun cell => { cell with symbol := f cell.symbol }.restyle s
      let c :=
        if first then put (fun _ => symbol) x
        else if x = area.x then put (· ++ symbol) x
        else if width = 0 then put (· ++ symbol) (x - 1)
        else put (fun _ => symbol) x
      let c := c.clear { x := x + 1, y := area.y, width := width - 1, height := 1 }
      drawTitleSymbols area s false (x + width) rest c

/-- Draws the spans of a title into a rectangle of one row; those that take no column are left
out. -/
def drawTitleSpans : Line → Rect → Canvas → Canvas
  | [], _, c => c
  | span :: rest, area, c =>
    if area.isEmpty then c
    else if span.width = 0 then drawTitleSpans rest area c
    else
      let symbols := (Text.clusters span.text.toList).map fun cs =>
        (String.ofList cs, Text.listWidth cs)
      drawTitleSpans rest (area.cutLeft span.width).2
        (drawTitleSymbols area span.style true area.x symbols c)

/-- Draws a title into a rectangle of one row. -/
def putTitle (c : Canvas) (area : Rect) (title : Line) : Canvas :=
  drawTitleSpans title (area.intersect c.area) c

end Canvas

end InstallerBrowser
