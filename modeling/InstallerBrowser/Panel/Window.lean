import InstallerBrowser.Screen.Canvas

/-!
# InstallerBrowser.Panel.Window

The part of a list that a panel shows, and the scrollbar beside it.

A panel that scrolls shows as many items as it has rows, from the one it is scrolled to on, but
never leaves rows empty below the last item (`firstShown`). The thumb of a scrollbar takes as
much of the track as the rows are of the items, and at least one row.
-/

namespace InstallerBrowser.Panel

/-! ## Windows -/

/-- The number of the first item that is shown. -/
def firstShown (count scroll height : Nat) : Nat := min scroll (count - height)

/-- The items that are shown, with their numbers. -/
def window {α : Type} (items : List α) (scroll height : Nat) : List (Nat × α) :=
  let numbered := items.zipIdx.map fun (item, i) => (i, item)
  (numbered.drop (firstShown items.length scroll height)).take height

/-! ## Scrollbars -/

/-- How many items there are, and how many rows show them from which on. -/
structure Scrollbar where
  count : Nat
  height : Nat
  first : Nat
deriving Repr, DecidableEq

namespace Scrollbar

/-- Whether there is anything to scroll. -/
def isNeeded (s : Scrollbar) : Bool := 0 < s.height && s.height < s.count

/-- The rows of the thumb. -/
def thumbHeight (s : Scrollbar) : Nat := max (s.height * s.height / s.count) 1

/-- The row at which the thumb starts. -/
def thumbStart (s : Scrollbar) : Nat :=
  let most := s.count - s.height
  min s.first most * (s.height - s.thumbHeight) / most

/-- Whether the thumb covers a row. -/
def isThumb (s : Scrollbar) (i : Nat) : Bool :=
  s.thumbStart ≤ i && i < s.thumbStart + s.thumbHeight

/-- Draws a scrollbar from a cell downwards, if it is needed. -/
def draw (s : Scrollbar) (x y : Nat) (track thumb : Color) (c : Canvas) : Canvas :=
  if s.isNeeded then
    (List.range s.height).foldl (fun c i =>
      if s.isThumb i then c.putText x (y + i) "┃" (.ofFg thumb)
      else c.putText x (y + i) "│" (.ofFg track)) c
  else c

end Scrollbar

end InstallerBrowser.Panel
