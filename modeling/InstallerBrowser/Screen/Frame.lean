import InstallerBrowser.Screen.Canvas

/-!
# InstallerBrowser.Screen.Frame

The frame of a panel: a border around a background, and a title in the border.

The corners are drawn last and the upper left one last of all, so it is what is left of a frame
of one cell.
-/

namespace InstallerBrowser

/-- The look of a frame. -/
structure Frame where
  border : Style
  background : Style
  title : Span := { text := "" }
  /-- The look of the place of the title, below that of the title itself. -/
  titleBase : Style := {}
deriving Repr, DecidableEq

namespace Frame

/-- The part of a border at one cell of a rectangle. -/
def borderSymbol (r : Rect) (x y : Nat) : String :=
  let isLeft := x = r.x
  let isRight := x + 1 = r.right
  let isTop := y = r.y
  let isBottom := y + 1 = r.bottom
  if isLeft ∧ isTop then "┌"
  else if isLeft ∧ isBottom then "└"
  else if isRight ∧ isTop then "┐"
  else if isRight ∧ isBottom then "┘"
  else if isTop ∨ isBottom then "─"
  else "│"

/-- The place of a title. -/
def titleArea (r : Rect) : Rect := { x := r.x + 1, y := r.y, width := r.width - 2, height := 1 }

/-- Draws the border. -/
def drawBorder (f : Frame) (r : Rect) (c : Canvas) : Canvas :=
  r.rows.foldl (fun c y =>
    r.columns.foldl (fun c x =>
      if x = r.x ∨ x + 1 = r.right ∨ y = r.y ∨ y + 1 = r.bottom then
        c.draw x y fun cell => { cell with symbol := borderSymbol r x y }.restyle f.border
      else c) c) c

/-- Draws the title. -/
def drawTitle (f : Frame) (r : Rect) (c : Canvas) : Canvas :=
  let place := titleArea r
  if place.isEmpty then c
  else
    let title := Span.ofLines f.title.text f.title.style
    let place := { place with width := min (Line.width title) place.width }
    (c.restyle place f.titleBase).putTitle place title

/-- Draws a frame. -/
def draw (f : Frame) (area : Rect) (c : Canvas) : Canvas :=
  let r := area.intersect c.area
  if r.isEmpty then c
  else f.drawTitle r (f.drawBorder r (c.restyle r f.background))

end Frame

end InstallerBrowser
