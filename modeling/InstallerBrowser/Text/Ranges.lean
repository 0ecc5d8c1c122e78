/-!
# InstallerBrowser.Text.Ranges

Sets of characters as sorted tables of ranges.

A table lists disjoint ranges of code points in increasing order; `inRanges` looks a code point
up by halving the part of the table that can hold it.
-/

namespace InstallerBrowser.Text

/-- Whether a code point lies in one of the ranges from index `lo` up to, not including, `hi`. -/
def inRangesBetween (table : Array (Nat × Nat)) (n lo hi : Nat) : Bool :=
  if _h : lo < hi then
    let mid := (lo + hi) / 2
    match table[mid]? with
    | none => false
    | some (first, last) =>
      if n < first then inRangesBetween table n lo mid
      else if last < n then inRangesBetween table n (mid + 1) hi
      else true
  else false
termination_by hi - lo
decreasing_by all_goals omega

/-- Whether a code point lies in one of the ranges of a table. -/
def inRanges (table : Array (Nat × Nat)) (n : Nat) : Bool :=
  inRangesBetween table n 0 table.size

end InstallerBrowser.Text
