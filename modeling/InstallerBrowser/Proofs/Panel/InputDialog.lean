import InstallerBrowser.Proofs.Dialog.InputField
import InstallerBrowser.Proofs.Panel.Dialog

/-!
# InstallerBrowser.Proofs.Panel.InputDialog

A dialog that takes text on a screen.

On a screen that is large enough such a dialog has its place, and its field is wide enough for the
cursor to have a column in it.  Nothing that is drawn falls outside of the screen, and nothing is
drawn over the cell of the cursor after it (`cursor_shown`).
-/

namespace InstallerBrowser

open Canvas Layout Text

variable {c : Canvas} {area : Rect} {x y w h : Nat} {z : Halves}

/-! ## The place -/

theorem exists_area?_input (title prompt : String) (line : LineEdit) (button : DialogButton)
    (hwidth : minWidth ≤ c.width) (hheight : minHeight ≤ c.height) : ∃ area,
      (Dialog.input title prompt line button).area? c.area = some area ∧ c.Fits area ∧
        50 ≤ area.width ∧ area.height = 7 := by
  have hsmallest : minWidth = 60 ∧ minHeight = 16 := ⟨rfl, rfl⟩
  have hscreen : c.area.width = c.width ∧ c.area.height = c.height := ⟨rfl, rfl⟩
  refine ⟨_, rfl, fits_centered ?_ ?_, ?_, ?_⟩
  · simp only [Dialog.most]
    omega
  · simp only [Dialog.most]
    omega
  · simp only [Rect.centered, Dialog.most, Dialog.clampTo]
    omega
  · simp only [Rect.centered, Dialog.most]
    omega

namespace DialogPanel

/-! ## The field -/

/-- How the cell of a cursor looks: a bar at the end of the line, and elsewhere the character with
the colors of text and field exchanged. -/
def ShowsCursor (p : DialogPanel) (line : LineEdit) (cell : Cell) : Prop :=
  if line.text.utf8ByteSize ≤ line.cursor then
    cell.symbol = "▏" ∧ cell.fg = p.palette.text ∧ cell.bg = p.palette.field
  else cell.fg = p.palette.field ∧ cell.bg = p.palette.text

theorem drawnIn_drawCursor (p : DialogPanel) (atEnd : Bool) (c : Canvas) :
    DrawnIn (fun _ y' => y' = y) c (p.drawCursor x y atEnd c) :=
  drawnIn_modify c _ rfl

theorem showsCursor_drawCursor (p : DialogPanel) (line : LineEdit) (hfull : c.IsFull)
    (hx : x < c.width) (hy : y < c.height) : ∃ cell,
      (p.drawCursor x y (line.text.utf8ByteSize ≤ line.cursor) c).get? x y = some cell ∧
        p.ShowsCursor line cell := by
  obtain ⟨cell, hcell⟩ := hfull.exists_get? hx hy
  rw [drawCursor, get?_modify, if_pos ⟨rfl, rfl⟩, hcell, Option.map_some]
  refine ⟨_, rfl, ?_⟩
  rw [ShowsCursor]
  by_cases hend : line.text.utf8ByteSize ≤ line.cursor
  · rw [if_pos hend, if_pos (decide_eq_true hend)]
    exact ⟨rfl, rfl, rfl⟩
  · rw [if_neg hend, if_neg (by rwa [decide_eq_true_eq])]
    exact ⟨rfl, rfl⟩

/-- A field that is wide enough shows the cursor. -/
theorem exists_drawField_eq (p : DialogPanel) (z : Halves) (hfull : c.IsFull) (hw : 5 ≤ w)
    (hx : x + w ≤ c.width) (hy : y < c.height) : ∃ hidden between,
      z.before = hidden ++ between ∧
      InputField.view? z.line (max 1 (w - 2)) =
        some { shown := between ++ z.after, column := columns between } ∧
      columns between < max 1 (w - 2) ∧
      DrawnIn (fun _ y' => y' = y) c (p.drawField x y w z.line c) ∧
      ∃ cell, (p.drawField x y w z.line c).get? (x + 1 + columns between) y = some cell ∧
        p.ShowsCursor z.line cell := by
  have hlimit : 3 ≤ max 1 (w - 2) := by omega
  obtain ⟨hidden, between, hbefore, hview, hcolumn⟩ := InputField.exists_view?_line z hlimit
  refine ⟨hidden, between, hbefore, hview, hcolumn, ?_⟩
  have hbackground : DrawnIn (fun _ y' => y' = y) c ((List.range w).foldl (fun c i =>
      c.modify (x + i) y (·.restyle (.ofBg p.palette.field))) c) :=
    drawnIn_foldl fun i _ d _ _ => drawnIn_modify d _ rfl
  have htext := hbackground.trans ((drawnIn_drawText (x := x + 1) (y := y)
    (String.ofList (between ++ z.after)) (max 1 (w - 2))
    ((Style.ofFg p.palette.text).withBg p.palette.field)
    (by rw [hbackground.width]; omega) (by rwa [hbackground.height])).mono fun _ _ h => h.1)
  rw [drawField, hview]
  dsimp only
  rw [if_pos (by omega)]
  refine ⟨htext.trans (p.drawnIn_drawCursor _ _), ?_⟩
  exact p.showsCursor_drawCursor z.line (htext.isFull hfull) (by rw [htext.width]; omega)
    (by rwa [htext.height])

/-- The cells of the field of a dialog. -/
def fieldArea (area : Rect) : Rect :=
  let inner := Dialog.textArea area
  { x := inner.x, y := inner.y + 1, width := inner.width, height := 1 }

/-! ## The dialog -/

/-- A dialog that takes text is drawn without a fault, and shows the cursor in its field. -/
theorem exists_drawInput_eq (p : DialogPanel) (title prompt : String) (button : DialogButton)
    (z : Halves) (hfull : c.IsFull) (hfits : c.Fits area) (hwidth : 50 ≤ area.width)
    (hheight : area.height = 7) : ∃ hidden between,
      z.before = hidden ++ between ∧
      InputField.view? z.line (max 1 ((fieldArea area).width - 2)) =
        some { shown := between ++ z.after, column := columns between } ∧
      columns between < max 1 ((fieldArea area).width - 2) ∧
      (p.drawInput area title prompt z.line button c).spoiled = c.spoiled ∧
      ∃ cell, (p.drawInput area title prompt z.line button c).get?
          ((fieldArea area).x + 1 + columns between) (fieldArea area).y = some cell ∧
        p.ShowsCursor z.line cell := by
  have hright := hfits.right_le
  have hbottom := hfits.bottom_le
  have hinner : Dialog.textArea area =
      { x := area.x + 2, y := area.y + 1, width := area.width - 4, height := area.height - 2 } := rfl
  have hfield : fieldArea area =
      { x := area.x + 2, y := area.y + 2, width := area.width - 4, height := 1 } := rfl
  simp only [Rect.right, Rect.bottom] at hright hbottom
  have hframe := Frame.drawnIn_frame (p.frame title none) hfits
  have hprompt := drawnIn_putText (x := area.x + 2) (y := area.y + 1)
    (c := (p.frame title none).draw area c) prompt (.ofFg p.palette.text)
    (by rw [hframe.width]; omega) (by rw [hframe.height]; omega)
  have hbefore := (hframe.mono fun _ _ _ => trivial).trans (hprompt.mono fun _ _ _ => trivial)
  obtain ⟨hidden, between, hsplit, hview, hcolumn, hdrawn, cell, hcell, hshows⟩ :=
    p.exists_drawField_eq (x := area.x + 2) (y := area.y + 2) (w := area.width - 4) z
      (hbefore.isFull hfull) (by omega) (by rw [hbefore.width]; omega)
      (by rw [hbefore.height]; omega)
  have hfieldFits := (hfits.of_drawnIn hbefore).of_drawnIn hdrawn
  have hbuttons := p.drawnIn_drawButtons button hfieldFits hwidth (by omega)
  rw [hfield]
  refine ⟨hidden, between, hsplit, hview, hcolumn, ?_, cell, ?_, hshows⟩
  · rw [drawInput, hinner]
    exact hbuttons.spoiled.trans (hdrawn.spoiled.trans hbefore.spoiled)
  · rw [drawInput, hinner]
    refine (hbuttons.kept _ _ ?_).trans hcell
    show ¬ area.y + 2 = area.y + (area.height - 2)
    omega

/-- **The cursor is always in the field**: whatever was done to the line of a dialog, on a screen
that is large enough the dialog is drawn without a fault.  What the field shows starts at or before
the cursor, the column of the cursor is that of the characters from there on, and it is less than
the columns for the text; the cell of the cursor lies in the field and shows it. -/
theorem cursor_shown (p : DialogPanel) (title prompt text : String) (button : DialogButton)
    (ops : List LineEdit.Operation) (hfull : c.IsFull) (hwidth : minWidth ≤ c.width)
    (hheight : minHeight ≤ c.height) : ∃ line area hidden between after,
      (LineEdit.ofText text).run? ops = some line ∧
      line.text.toList = hidden ++ between ++ after ∧
      line.cursor = byteSize (hidden ++ between) ∧
      let dialog := Dialog.input title prompt line button
      let drawn := { p with dialog }.draw c.area c
      let field := fieldArea area
      dialog.area? c.area = some area ∧
      InputField.view? line (max 1 (field.width - 2)) =
        some { shown := between ++ after, column := columns between } ∧
      columns between < max 1 (field.width - 2) ∧
      field.contains (field.x + 1 + columns between) field.y = true ∧
      drawn.spoiled = c.spoiled ∧
      ∃ cell, drawn.get? (field.x + 1 + columns between) field.y = some cell ∧
        p.ShowsCursor line cell := by
  obtain ⟨z, hrun⟩ : ∃ z : Halves, (LineEdit.ofText text).run? ops = some z.line :=
    ⟨_, by rw [← Halves.line_ofText, Halves.run?_line]⟩
  obtain ⟨area, harea, hfits, hwide, hseven⟩ :=
    exists_area?_input title prompt z.line button hwidth hheight
  have hclear : DrawnIn _ c (c.clear area) := drawnIn_clear hfits.holds
  obtain ⟨hidden, between, hsplit, hview, hcolumn, hspoiled, cell, hcell, hshows⟩ :=
    { p with dialog := .input title prompt z.line button }.exists_drawInput_eq title prompt button z
      (hclear.isFull hfull) (hfits.of_drawnIn hclear) hwide hseven
  have hdrawn : { p with dialog := .input title prompt z.line button }.draw c.area c =
      { p with dialog := .input title prompt z.line button }.drawInput area title prompt z.line
        button (c.clear area) := by
    rw [draw, harea]
    dsimp only
    rw [drawIn, if_neg (by omega)]
  refine ⟨z.line, area, hidden, between, z.after, hrun, ?_, ?_, harea, hview, hcolumn, ?_, ?_,
    cell, ?_, hshows⟩
  · rw [Halves.line, String.toList_ofList, hsplit]
  · rw [Halves.line, hsplit]
  · rw [Rect.contains_iff]
    simp only [fieldArea, Dialog.textArea, Dialog.textWidth, Dialog.sidePadding] at hcolumn ⊢
    omega
  · rw [hdrawn, hspoiled, hclear.spoiled]
  · rw [hdrawn]
    exact hcell

/-- A line of wide characters that is too long for the field. -/
def wideName : String := String.ofList (List.replicate 30 '설')

/-- Moves, and a character without a width. -/
def wideEdits : List LineEdit.Operation := [.left, .left, .insert '\u0301']

theorem cursor_shown_wideName :
    (blank 80 24).IsFull ∧ minWidth ≤ 80 ∧ minHeight ≤ 24 ∧
      ∃ line cell, (LineEdit.ofText wideName).run? wideEdits = some line ∧
        let p : DialogPanel := { dialog := .input "T" "P" line .ok }
        (p.draw (blank 80 24).area (blank 80 24)).get? 60 10 = some cell ∧
          p.ShowsCursor line cell := by
  have hlarge : (blank 80 24).IsFull ∧ minWidth ≤ 80 ∧ minHeight ≤ 24 :=
    ⟨isFull_blank 80 24, by decide, by decide⟩
  obtain ⟨line, area, _, between, _, hrun, _, _, harea, hview, _, _, _, cell, hcell, hshows⟩ :=
    cursor_shown { dialog := .help 0 } "T" "P" wideName .ok wideEdits hlarge.1 hlarge.2.1 hlarge.2.2
  have hplace : area = { x := 15, y := 8, width := 50, height := 7 } :=
    (Option.some.inj harea).symm
  subst hplace
  have hviewed : ((LineEdit.ofText wideName).run? wideEdits).map
      (fun line => (InputField.view? line 44).map (·.column)) = some (some 42) := by
    decide +kernel
  have hfield : max 1 ((fieldArea { x := 15, y := 8, width := 50, height := 7 }).width - 2) = 44 :=
    rfl
  rw [hfield] at hview
  rw [hrun, Option.map_some, hview] at hviewed
  have hcolumn : columns between = 42 := by simpa using hviewed
  rw [hcolumn] at hcell
  exact ⟨hlarge.1, hlarge.2.1, hlarge.2.2, line, cell, hrun, hcell, hshows⟩

end DialogPanel

end InstallerBrowser
