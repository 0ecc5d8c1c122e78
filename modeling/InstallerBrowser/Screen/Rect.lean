/-!
# InstallerBrowser.Screen.Rect

Rectangles of cells.

A rectangle has a corner, a width and a height; its cells are those from the corner on up to, not
including, `right` and `bottom`.
-/

namespace InstallerBrowser

/-- A rectangle of cells. -/
structure Rect where
  x : Nat := 0
  y : Nat := 0
  width : Nat := 0
  height : Nat := 0
deriving Repr, DecidableEq, Inhabited

namespace Rect

/-- The column behind the last one. -/
def right (r : Rect) : Nat := r.x + r.width

/-- The row behind the last one. -/
def bottom (r : Rect) : Nat := r.y + r.height

/-- Whether a rectangle has no cells. -/
def isEmpty (r : Rect) : Bool := r.width == 0 || r.height == 0

/-- Whether a cell lies in a rectangle. -/
def contains (r : Rect) (x y : Nat) : Bool :=
  r.x ≤ x && x < r.right && r.y ≤ y && y < r.bottom

/-- The cells that two rectangles share. -/
def intersect (r s : Rect) : Rect :=
  let x := max r.x s.x
  let y := max r.y s.y
  { x, y, width := min r.right s.right - x, height := min r.bottom s.bottom - y }

/-- The rectangle inside a border of one cell. -/
def inside (r : Rect) : Rect :=
  { x := min (r.x + 1) r.right, y := min (r.y + 1) r.bottom
    width := r.width - 2, height := r.height - 2 }

/-- The columns of a rectangle. -/
def columns (r : Rect) : List Nat := (List.range r.width).map (r.x + ·)

/-- The rows of a rectangle. -/
def rows (r : Rect) : List Nat := (List.range r.height).map (r.y + ·)

/-- A rectangle cut at a distance from its bottom: the upper part, and the lower part of the
height given. -/
def cutBottom (r : Rect) (height : Nat) : Rect × Rect :=
  ( { r with height := r.height - height }
  , { r with y := r.bottom - height, height := min height r.height } )

/-- A rectangle cut at a distance from its left side. -/
def cutLeft (r : Rect) (width : Nat) : Rect × Rect :=
  ( { r with width := min width r.width }
  , { r with x := r.x + min width r.width, width := r.width - width } )

/-- A rectangle of a size in the middle of another one. -/
def centered (r : Rect) (width height : Nat) : Rect :=
  { x := r.x + (r.width - width) / 2, y := r.y + (r.height - height) / 2, width, height }

end Rect

end InstallerBrowser
