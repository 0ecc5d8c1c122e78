/-!
# InstallerBrowser.Text.Blank

Blank characters, control characters and trimming.

`isBlank` is the Unicode property White_Space, `isControl` the general category Cc.
`trim` removes blank characters at both ends and nothing else (`toList_trim`);
a text that holds blank characters only, or none at all, is `isBlankText`.
-/

namespace InstallerBrowser.Text

/-! ## Classes of characters -/

/-- The Unicode property White_Space. -/
def isBlank (c : Char) : Bool :=
  let n := c.toNat
  (9 ≤ n && n ≤ 13) || n == 0x20 || n == 0x85 || n == 0xA0 || n == 0x1680 ||
    (0x2000 ≤ n && n ≤ 0x200A) || n == 0x2028 || n == 0x2029 || n == 0x202F ||
    n == 0x205F || n == 0x3000

/-- The general category Cc: the C0 and C1 controls and DEL. -/
def isControl (c : Char) : Bool :=
  c.toNat < 0x20 || (0x7F ≤ c.toNat && c.toNat < 0xA0)

/-- Every character that core calls whitespace is blank. -/
theorem isBlank_of_isWhitespace {c : Char} (h : c.isWhitespace = true) : isBlank c = true := by
  simp only [Char.isWhitespace, Bool.or_eq_true, decide_eq_true_eq] at h
  rcases h with ((h | h) | h) | h <;> subst h <;> decide

/-! ## Trimming -/

/-- The characters from the first one on that is not blank. -/
def dropBlank (cs : List Char) : List Char := cs.dropWhile isBlank

/-- The characters up to the last one that is not blank. -/
def dropBlankRight (cs : List Char) : List Char := (dropBlank cs.reverse).reverse

/-- The text without the blank characters at its two ends. -/
def trim (s : String) : String := String.ofList (dropBlankRight (dropBlank s.toList))

/-- The text without the blank characters at its end. -/
def trimRight (s : String) : String := String.ofList (dropBlankRight s.toList)

/-- Whether a text holds no character but blank ones. -/
def isBlankText (s : String) : Bool := s.toList.all isBlank

theorem toList_trim (s : String) : (trim s).toList = dropBlankRight (dropBlank s.toList) := by
  simp [trim]

end InstallerBrowser.Text
