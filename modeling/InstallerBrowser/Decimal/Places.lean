import InstallerBrowser.Decimal.Binary

/-!
# InstallerBrowser.Decimal.Places

Decimals with a fixed number of places.

`places n x` writes a magnitude with `n` digits after the point. The digits are those of the
exact value rounded to `n` places, a half going to the even digit.
-/

namespace InstallerBrowser.Decimal

/-- A number in decimal, with zeros in front up to a width. -/
def padded (width n : Nat) : String :=
  let ds := toString n
  "".pushn '0' (width - ds.length) ++ ds

/-- A magnitude with `n` digits after the point, for `0 < n`. -/
def places (n : Nat) (x : Magnitude) : String :=
  let (num, den) := x.ratio
  let scaled := roundDiv (num * Nat.pow 10 n) den
  toString (scaled / Nat.pow 10 n) ++ "." ++ padded n (scaled % Nat.pow 10 n)

end InstallerBrowser.Decimal
