/-!
# InstallerBrowser.Decimal.Binary

Binary floating-point numbers with 53 significant bits, in exact arithmetic.

A `Magnitude` is `mantissa · 2 ^ exponent`. The representable ones have
`mantissa < 2 ^ 53` and `-1074 ≤ exponent`, and use the smallest exponent that
these bounds allow. `nearest num den` is the representable magnitude next to the
quotient `num / den`; a quotient half way between two goes to the even mantissa
(`two_mul_roundDiv_le`, `le_two_mul_roundDiv`: the rounded quotient is within one half).
-/

namespace InstallerBrowser.Decimal

/-! ## Rounding a quotient -/

/-- The integer next to `num / den`; a quotient half way between two goes to the even one. -/
def roundDiv (num den : Nat) : Nat :=
  let q := num / den
  let twice := 2 * (num % den)
  if twice < den then q
  else if den < twice then q + 1
  else q + q % 2

/-- Rounding up is by one half at most. -/
theorem two_mul_roundDiv_le (num : Nat) {den : Nat} (h : 0 < den) :
    2 * (roundDiv num den * den) ≤ 2 * num + den := by
  have hd := Nat.div_add_mod num den
  have hm := Nat.mod_lt num h
  have hc : den * (num / den) = num / den * den := Nat.mul_comm _ _
  simp only [roundDiv]
  split
  · omega
  · split
    · have : (num / den + 1) * den = num / den * den + den := Nat.succ_mul _ _
      omega
    · have h2 : num / den % 2 < 2 := Nat.mod_lt _ (by decide)
      rcases Nat.lt_or_ge (num / den % 2) 1 with h0 | h1
      · have h0 : num / den % 2 = 0 := by omega
        rw [h0, Nat.add_zero]
        omega
      · have : num / den % 2 = 1 := by omega
        rw [this]
        have : (num / den + 1) * den = num / den * den + den := Nat.succ_mul _ _
        omega

/-- Rounding down is by one half at most. -/
theorem le_two_mul_roundDiv (num : Nat) {den : Nat} (h : 0 < den) :
    2 * num ≤ 2 * (roundDiv num den * den) + den := by
  have hd := Nat.div_add_mod num den
  have hm := Nat.mod_lt num h
  have hc : den * (num / den) = num / den * den := Nat.mul_comm _ _
  simp only [roundDiv]
  split
  · omega
  · split
    · have : (num / den + 1) * den = num / den * den + den := Nat.succ_mul _ _
      omega
    · have hle : num / den * den ≤ (num / den + num / den % 2) * den :=
        Nat.mul_le_mul_right _ (Nat.le_add_right _ _)
      omega

/-! ## Magnitudes -/

/-- The number `mantissa · 2 ^ exponent`. -/
structure Magnitude where
  mantissa : Nat
  exponent : Int
deriving Repr, DecidableEq, Inhabited

namespace Magnitude

/-- Zero, with the exponent of the smallest magnitudes. -/
def zero : Magnitude := ⟨0, -1074⟩

/-- The numerator and the denominator of the number. -/
def ratio (x : Magnitude) : Nat × Nat :=
  (x.mantissa * Nat.pow 2 x.exponent.toNat, Nat.pow 2 (-x.exponent).toNat)

/-- Whether the number is zero. -/
def isZero (x : Magnitude) : Bool := x.mantissa == 0

/-- Whether the number reaches `2 ^ 1024`, the first that no finite value holds. -/
def isTooLarge (x : Magnitude) : Bool := x.exponent > 971 && x.mantissa != 0

end Magnitude

/-- The exponent that leaves 53 bits of `num / den` before the point, or -1074. -/
private def exponentFor (num den : Nat) : Int :=
  let guess : Int := (Nat.log2 num : Int) - (Nat.log2 den : Int) - 52
  let scaledNum := num * Nat.pow 2 (-guess).toNat
  let scaledDen := den * Nat.pow 2 guess.toNat
  let exact := if scaledNum < scaledDen * Nat.pow 2 52 then guess - 1 else guess
  max exact (-1074)

/-- The representable magnitude next to `num / den`, ties to the even mantissa. -/
def nearest (num den : Nat) : Magnitude :=
  if num = 0 then Magnitude.zero
  else
    let e := exponentFor num den
    let m := roundDiv (num * Nat.pow 2 (-e).toNat) (den * Nat.pow 2 e.toNat)
    if m = Nat.pow 2 53 then ⟨Nat.pow 2 52, e + 1⟩ else ⟨m, e⟩

namespace Magnitude

/-- The magnitude next to a natural number. -/
def ofNat (n : Nat) : Magnitude := nearest n 1

/-- The magnitude next to the product. -/
def mul (x y : Magnitude) : Magnitude :=
  nearest (x.ratio.1 * y.ratio.1) (x.ratio.2 * y.ratio.2)

/-- The magnitude next to the quotient. -/
def div (x y : Magnitude) : Magnitude :=
  nearest (x.ratio.1 * y.ratio.2) (x.ratio.2 * y.ratio.1)

/-- The integer next to the number; one half goes up. -/
def roundHalfUp (x : Magnitude) : Nat :=
  (2 * x.ratio.1 + x.ratio.2) / (2 * x.ratio.2)

end Magnitude

end InstallerBrowser.Decimal
