import InstallerBrowser.Decimal.Places

/-!
# InstallerBrowser.Measure

Sizes, times and counts in words.

Sizes and times are computed in binary floating point with 53 bits and then written with a fixed
number of places, rounded exactly.
-/

namespace InstallerBrowser.Measure

open InstallerBrowser.Decimal

/-- A count of units of `2 ^ shift` bytes. -/
private def units (bytes shift : Nat) : Magnitude :=
  let x := Magnitude.ofNat bytes
  { x with exponent := x.exponent - shift }

/-- A size in the largest unit that it reaches. -/
def fileSize (bytes : Nat) : String :=
  if bytes < Nat.pow 2 10 then toString bytes ++ " B"
  else if bytes < Nat.pow 2 20 then places 1 (units bytes 10) ++ " KB"
  else if bytes < Nat.pow 2 30 then places 1 (units bytes 20) ++ " MB"
  else places 1 (units bytes 30) ++ " GB"

/-- A size in megabytes. -/
def sizeInMegabytes (bytes : Nat) : String := places 2 (units bytes 20) ++ " MB"

/-- The longest time in seconds that is told in minutes. -/
def maxSeconds : Nat := Nat.pow 2 64 - 1

/-- A time in seconds: below one minute with one place, from then on in whole minutes and
seconds. -/
def elapsed (seconds : Magnitude) : String :=
  let (num, den) := seconds.ratio
  if num < 60 * den then places 1 seconds ++ "s"
  else
    let total := min seconds.roundHalfUp maxSeconds
    toString (total / 60) ++ "m " ++ padded 2 (total % 60) ++ "s"

/-- A count and its noun. -/
def pluralize (n : Nat) (one many : String) : String :=
  toString n ++ " " ++ (if n = 1 then one else many)

/-- The first row to show of a list, so that the cursor is among `height` rows: the old one if it
will do, and the nearest to it otherwise. -/
def keepInView (cursor offset height : Nat) : Nat :=
  if height = 0 then cursor
  else if cursor < offset then cursor
  else if offset + height ≤ cursor then cursor + 1 - height
  else offset

theorem keepInView_le_cursor (cursor offset height : Nat) :
    keepInView cursor offset height ≤ cursor := by
  simp only [keepInView]
  split
  · exact Nat.le_refl _
  · split
    · exact Nat.le_refl _
    · split <;> omega

theorem cursor_lt_keepInView_add {cursor height : Nat} (offset : Nat) (h : 0 < height) :
    cursor < keepInView cursor offset height + height := by
  simp only [keepInView]
  split
  · omega
  · split
    · omega
    · split <;> omega

end InstallerBrowser.Measure
