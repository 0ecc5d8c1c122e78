import InstallerBrowser.Dialog.InputField
import InstallerBrowser.Proofs.Dialog.LineEdit
import InstallerBrowser.Proofs.Text.Truncate

/-!
# InstallerBrowser.Proofs.Dialog.InputField

The cursor is in the field.

Characters are left out until enough columns are (`exists_skipColumns_eq`).  The last of them can
be wider than what was missing, by two columns at most, and only characters before the cursor are
left out; so in a field of three columns or more the cursor has a place (`exists_view?_line`).
-/

namespace InstallerBrowser

open Text

variable {cs before : List Char} {n limit : Nat}

/-- A character takes three columns at most. -/
theorem Text.charWidth_le (c : Char) : charWidth c ≤ 3 := by
  unfold charWidth
  dsimp only
  repeat' split
  all_goals decide

namespace InputField

/-- The characters that are left out are the fewest from the front on that take enough columns, and
they take two columns more at most. -/
theorem exists_skipColumns_eq (h : n ≤ columns cs) : ∃ hidden shown,
    cs = hidden ++ shown ∧ skipColumns n cs = (columns hidden, shown) ∧
      n ≤ columns hidden ∧ columns hidden ≤ n + 2 ∧
      ∀ front, front <+: cs → n ≤ columns front → hidden <+: front := by
  induction cs generalizing n with
  | nil =>
      obtain rfl : n = 0 := Nat.le_zero.mp h
      exact ⟨[], [], rfl, rfl, h, Nat.zero_le _, fun front _ _ => List.nil_prefix⟩
  | cons c cs ih =>
      cases n with
      | zero =>
          exact ⟨[], c :: cs, rfl, rfl, Nat.zero_le _, Nat.zero_le _,
            fun front _ _ => List.nil_prefix⟩
      | succ n =>
          rw [columns_cons] at h
          obtain ⟨hidden, shown, hcs, hskip, hle, hmost, hleast⟩ :=
            ih (n := n + 1 - charWidth c) (by omega)
          refine ⟨c :: hidden, shown, by rw [hcs, List.cons_append], ?_, ?_, ?_, ?_⟩
          · rw [skipColumns, hskip, columns_cons]
          · rw [columns_cons]
            omega
          · -- a character that is wider than what is missing is the last one
            have hwidth := charWidth_le c
            rw [columns_cons]
            by_cases hlast : n + 1 ≤ charWidth c
            · have hnil := hleast [] List.nil_prefix (by omega)
              rw [List.prefix_nil.mp hnil, columns, List.foldr_nil]
              omega
            · omega
          · intro front hfront hwide
            cases front with
            | nil => exact absurd hwide (Nat.not_succ_le_zero n)
            | cons c' front =>
                obtain ⟨rfl, hrest⟩ := List.cons_prefix_cons.mp hfront
                rw [columns_cons] at hwide
                exact List.cons_prefix_cons.mpr ⟨rfl, hleast front hrest (by omega)⟩

/-- **A cursor between two characters has a place in the field**: what is left out stands before
it, and its column is that of the characters from there on to it. -/
theorem exists_view?_line (z : Halves) (hlimit : 3 ≤ limit) : ∃ hidden between,
    z.before = hidden ++ between ∧
      view? z.line limit = some { shown := between ++ z.after, column := columns between } ∧
      columns between < limit := by
  have hview : view? z.line limit =
      if columns z.before < limit then
        some { shown := z.before ++ z.after, column := columns z.before }
      else
        let left := skipColumns (columns z.before + 1 - limit) (z.before ++ z.after)
        if left.1 ≤ columns z.before then
          some { shown := left.2, column := columns z.before - left.1 }
        else none := by
    rw [view?, z.clamp_line, z.halves?_line]
    rfl
  rw [hview]
  split
  · next hfits => exact ⟨[], z.before, rfl, rfl, hfits⟩
  · next hwide =>
      have hsum := columns_append z.before z.after
      have hneeded : columns z.before + 1 - limit ≤ columns (z.before ++ z.after) := by omega
      obtain ⟨hidden, shown, hcs, hskip, hle, hmost, hleast⟩ := exists_skipColumns_eq hneeded
      obtain ⟨between, hbefore⟩ := hleast z.before (List.prefix_append _ _) (by omega)
      have hshown : shown = between ++ z.after := by
        rw [← hbefore, List.append_assoc] at hcs
        exact (List.append_cancel_left hcs).symm
      have hcolumns : columns z.before = columns hidden + columns between := by
        rw [← hbefore, columns_append]
      refine ⟨hidden, between, hbefore.symm, ?_, by omega⟩
      rw [hskip]
      dsimp only
      rw [if_pos (by omega), hshown, hcolumns, Nat.add_sub_cancel_left]

end InputField

end InstallerBrowser
