import InstallerBrowser.Decimal.Binary

/-!
# InstallerBrowser.Decimal.Shortest

The shortest decimal that reads back as a given binary magnitude.

Every real number strictly between the half-way points to the two neighbours of a
magnitude rounds to it, and the half-way points do so exactly if the mantissa is even:
this is its `Interval`. Among the decimals with `n` digits only the two around the
magnitude can lie in the interval without a nearer one doing so; the first `n` for which
one of the two does gives the shortest decimal, and of two hits the nearer is taken.
-/

namespace InstallerBrowser.Decimal

/-- The numbers between `low / den` and `high / den`, with or without the two ends. -/
structure Interval where
  low : Nat
  high : Nat
  den : Nat
  closed : Bool

namespace Interval

/-- The numbers that round to a magnitude. -/
def around (x : Magnitude) : Interval :=
  let lower := if x.mantissa = Nat.pow 2 52 ∧ x.exponent > -1074 then 1 else 2
  let scale := Nat.pow 2 x.exponent.toNat
  { low := (4 * x.mantissa - lower) * scale
    high := (4 * x.mantissa + 2) * scale
    den := 4 * Nat.pow 2 (-x.exponent).toNat
    closed := x.mantissa % 2 == 0 }

/-- Whether `num / den` lies in the interval. -/
def contains (i : Interval) (num den : Nat) : Bool :=
  if i.closed then i.low * den ≤ num * i.den && num * i.den ≤ i.high * den
  else i.low * den < num * i.den && num * i.den < i.high * den

end Interval

/-- A decimal `digits · 10 ^ exponent`. -/
structure Scientific where
  digits : Nat
  exponent : Int
deriving Repr, DecidableEq, Inhabited

namespace Scientific

/-- The numerator and the denominator of the decimal. -/
def ratio (d : Scientific) : Nat × Nat :=
  (d.digits * Nat.pow 10 d.exponent.toNat, Nat.pow 10 (-d.exponent).toNat)

/-- The same decimal without zeros at the end of its digits. -/
def stripZeros (d : Scientific) : Scientific :=
  if d.digits ≠ 0 ∧ d.digits % 10 = 0 then stripZeros ⟨d.digits / 10, d.exponent + 1⟩ else d
termination_by d.digits
decreasing_by
  exact Nat.div_lt_self (by omega) (by decide)

/-- The decimal digits, most significant first. -/
def digitList (d : Scientific) : List Char := (toString d.digits).toList

end Scientific

/-- The largest `k` with `10 ^ k ≤ num / den`, for a positive quotient. -/
def decimalExponent (num den : Nat) : Int :=
  let digits (n : Nat) : Nat := (toString n).length
  let guess : Int := (digits num : Int) - (digits den : Int)
  if num * Nat.pow 10 (-guess).toNat < den * Nat.pow 10 guess.toNat then guess - 1 else guess

/-- The nearer to `num / den` of the two decimals with the last digit at `10 ^ e` around it,
of those in the interval; the lower one has an even digit count in a tie. -/
def gridHit (i : Interval) (num den : Nat) (e : Int) : Option Scientific :=
  let unitNum := Nat.pow 10 e.toNat
  let unitDen := Nat.pow 10 (-e).toNat
  let scaledNum := num * unitDen
  let scaledDen := den * unitNum
  let below := scaledNum / scaledDen
  let hit (d : Nat) : Bool := i.contains (d * unitNum) unitDen
  match hit below, hit (below + 1) with
  | true, false => some ⟨below, e⟩
  | false, true => some ⟨below + 1, e⟩
  | true, true => some ⟨roundDiv scaledNum scaledDen, e⟩
  | false, false => none

/-- The shortest decimal that rounds to a magnitude, and the nearest to it of that length. -/
def shortest (x : Magnitude) : Scientific :=
  if x.isZero then ⟨0, 0⟩
  else
    let (num, den) := x.ratio
    let k := decimalExponent num den
    let i := Interval.around x
    let hit := (List.range 17).findSome? fun (n : Nat) => gridHit i num den (k - n)
    (hit.getD ⟨x.mantissa, x.exponent⟩).stripZeros

/-! ## The written form -/

/-- How a decimal is written: positional notation holds while the exponent of the first
digit is at least `positionalFrom` and below `positionalTo`. -/
structure Layout where
  positionalFrom : Int
  positionalTo : Int

/-- Zeros, `n` of them. -/
private def zeros (n : Nat) : List Char := List.replicate n '0'

/-- Writes a decimal. Positional notation always has a digit on both sides of the point;
scientific notation has one digit before the point, no point after a lone digit, and the
sign of the exponent. -/
def Layout.write (style : Layout) (d : Scientific) : List Char :=
  let ds := d.digitList
  let first : Int := d.exponent + ds.length - 1
  if d.digits = 0 then ['0', '.', '0']
  else if style.positionalFrom ≤ first ∧ first < style.positionalTo then
    if first < 0 then '0' :: '.' :: zeros (-first - 1).toNat ++ ds
    else
      let whole := (first + 1).toNat
      if ds.length ≤ whole then ds ++ zeros (whole - ds.length) ++ ['.', '0']
      else ds.take whole ++ '.' :: ds.drop whole
  else
    let tail := if ds.length = 1 then [] else '.' :: ds.drop 1
    let sign := if first < 0 then '-' else '+'
    ds.take 1 ++ tail ++ 'e' :: sign :: (toString first.natAbs).toList

end InstallerBrowser.Decimal
