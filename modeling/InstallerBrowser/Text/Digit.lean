/-!
# InstallerBrowser.Text.Digit

Digits in base sixteen, in capitals or not.

The digit that core writes for a number below sixteen is read back as that number
(`hexValue?_digitChar`).
-/

namespace InstallerBrowser.Text

/-- The value of a digit in base sixteen. -/
def hexValue? (c : Char) : Option Nat :=
  if c.isDigit then some (c.toNat - 48)
  else if 'a' ≤ c ∧ c ≤ 'f' then some (c.toNat - 87)
  else if 'A' ≤ c ∧ c ≤ 'F' then some (c.toNat - 55)
  else none

theorem hexValue?_digitChar {n : Nat} (h : n < 16) : hexValue? (Nat.digitChar n) = some n := by
  have below : ∀ k : Fin 16, hexValue? (Nat.digitChar k) = some k.val := by decide
  exact below ⟨n, h⟩

end InstallerBrowser.Text
