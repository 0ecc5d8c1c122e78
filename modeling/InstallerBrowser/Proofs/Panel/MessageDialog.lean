import InstallerBrowser.Proofs.Panel.Dialog
import InstallerBrowser.Proofs.Screen.Layout
import InstallerBrowser.Proofs.Screen.Paragraph
import Mathlib.Data.List.Flatten

/-!
# InstallerBrowser.Proofs.Panel.MessageDialog

A dialog that shows a message on a screen.

The height of such a dialog follows from the columns of the message, the rows of the message from
its words.  So a message is shown in whole exactly if the rows behind those of the dialog hold no
letter, and the ones before them none that is out of sight (`messageShown_iff`): the end of a
message of long words is cut off, although the screen has room for it (`not_shown_longWords`).  It
is enough that there are rows for all lines when each row but the last one of a line misses a word
(`messageShown_of_rowBound`).
-/

namespace InstallerBrowser

open Canvas Layout

variable {c : Canvas} {area : Rect} {text : String} {x y count columns wanted : Nat}

/-! ## The place -/

namespace Dialog

/-- Whether a dialog shows a text, as an error or not. -/
def Tells (d : Dialog) (text : String) : Prop :=
  ∃ title, d = .error title text ∨ d = .message title text

/-- The columns for a message, on a screen that is large enough. -/
def messageColumns : Nat := 52

/-- The columns from the left side of a message to the border of its dialog. -/
def innerColumns : Nat := messageColumns + 1

/-- The rows for a message in a dialog that asks for so many rows. -/
def messageRoom (wanted : Nat) : Nat := max 6 wanted - 4

/-- A message has its place, and its dialog has the rows that it asks for unless the screen has
less. -/
theorem exists_area?_message {d : Dialog} (htells : d.Tells text) (hwidth : minWidth ≤ c.width)
    (hheight : minHeight ≤ c.height)
    (hwanted : messageHeight? text messageColumns = some wanted)
    (hfree : wanted ≤ most c.height) : ∃ area, d.area? c.area = some area ∧ c.Fits area ∧
      area.width = 56 ∧ area.height - 4 = messageRoom wanted ∧ 6 ≤ area.height := by
  have hsmallest : minWidth = 60 ∧ minHeight = 16 := ⟨rfl, rfl⟩
  have hscreen : c.area.width = c.width ∧ c.area.height = c.height := ⟨rfl, rfl⟩
  have hnarrow : max 30 (min 56 (most c.width)) = 56 := by
    simp only [most]
    omega
  have hcolumns : max 1 (textWidth 56) = messageColumns := rfl
  have hsize : d.wantedSize? c.area = some (56, max 6 wanted) := by
    have haround : d.wantedSize? c.area =
        (messageHeight? text (max 1 (textWidth (max 30 (min 56 (most c.width)))))).map fun height =>
          (max 30 (min 56 (most c.width)), max 6 (min height (most c.height))) := by
      obtain ⟨title, rfl | rfl⟩ := htells <;> rfl
    rw [haround, hnarrow, hcolumns, hwanted, Option.map_some, Nat.min_eq_left hfree]
  refine ⟨c.area.centered 56 (max 6 wanted), ?_, fits_centered ?_ ?_, rfl, rfl,
    Nat.le_max_left 6 wanted⟩
  · rw [area?, hsize, Option.map_some, hscreen.1, hscreen.2]
    simp only [most] at hfree ⊢
    congr 2 <;> omega
  · omega
  · rw [most] at hfree
    omega

end Dialog

namespace DialogPanel

open Dialog Glyph

/-! ## Reading a message -/

/-- The glyphs of a line of a message. -/
def lineGlyphs (line : String) : List Glyph := Line.glyphs {} [⟨line, {}⟩]

/-- The glyphs of a message, line by line. -/
def messageGlyphs (text : String) : List Glyph := (Text.lines text).flatMap lineGlyphs

/-- The rows of a message. -/
def wrappedRows (text : String) : List (List Glyph) :=
  (Text.lines text).flatMap fun line => wrapLine messageColumns true (lineGlyphs line)

/-- The cells of a dialog inside of its border and above its buttons. -/
def bodyArea (area : Rect) : Rect :=
  { x := area.x + 1, y := area.y + 1, width := area.width - 2, height := area.height - 3 }

theorem rows_wrapped (p : DialogPanel) (text : String) :
    (p.wrapped text).rows messageColumns = wrappedRows text := by
  rw [Paragraph.rows, wrapped, if_neg (by decide), List.flatMap_map]
  rfl

/-- The rows of a message hold the letters that fit into a row. -/
theorem letters_wrappedRows (text : String) : (wrappedRows text).flatMap letters =
    letters ((messageGlyphs text).filter fun g => g.width ≤ messageColumns) := by
  rw [wrappedRows, messageGlyphs, List.flatMap_assoc, List.filter_flatMap, letters_flatMap]
  exact List.flatMap_congr fun line _ => letters_wrapLine messageColumns true _

theorem letters_blank : letters [{ symbol := " " }] = [] := by decide

/-- A frame around cleared cells leaves them blank. -/
theorem isBlankAt_frame (f : Frame) (hfull : c.IsFull) (hfits : c.Fits area)
    (hbody : (bodyArea area).contains x y = true) :
    (f.draw area (c.clear area)).IsBlankAt x y := by
  have hclear : DrawnIn _ c (c.clear area) := drawnIn_clear hfits.holds
  simp only [Rect.contains_iff, bodyArea] at hbody
  have hcell : area.contains x y = true := Rect.contains_iff.mpr (by omega)
  obtain ⟨hx, hy⟩ := hfits.holds x y hcell
  obtain ⟨cell, hcell'⟩ := hfull.exists_get? hx hy
  rw [IsBlankAt, f.get?_draw_inside (hfits.of_drawnIn hclear) (by omega)
    (by simp only [Rect.right]; omega) (by omega) (by simp only [Rect.bottom]; omega), get?_clear,
    if_pos hcell, hcell']
  exact ⟨_, rfl, letters_blank⟩

/-- The place of a message in its dialog. -/
def messagePlace (area : Rect) : Rect :=
  { x := area.x + 2, y := area.y + 1, width := messageColumns, height := area.height - 4 }

theorem messagePlace_eq (hwidth : area.width = 56) :
    { textArea area with height := area.height - 4 } = messagePlace area := by
  simp only [textArea, textWidth, hwidth]
  rfl

theorem isEmpty_messagePlace (hheight : 6 ≤ area.height) :
    (messagePlace area).isEmpty = false := by
  rw [Rect.isEmpty_eq_false_iff]
  exact ⟨Nat.succ_pos 51, Nat.sub_pos_of_lt (Nat.lt_of_lt_of_le (by decide) hheight)⟩

theorem drawnIn_clearedFrame (f : Frame) (hfits : c.Fits area) :
    DrawnIn (fun x y => area.contains x y = true) c (f.draw area (c.clear area)) :=
  have hclear := drawnIn_clear hfits.holds
  hclear.trans (Frame.drawnIn_frame f (hfits.of_drawnIn hclear))

/-- The letters of a message that are drawn into a frame. -/
theorem letters_draw_wrapped (p : DialogPanel) (f : Frame) (text : String) (hfull : c.IsFull)
    (hfits : c.Fits area) (hwidth : area.width = 56) (hheight : 6 ≤ area.height) :
    ((p.wrapped text).draw (messagePlace area) (f.draw area (c.clear area))).letters
        (bodyArea area) =
      ((wrappedRows text).take (area.height - 4)).flatMap fun row =>
        Glyph.letters (within innerColumns row) := by
  have hcolumns : (bodyArea area).right - (messagePlace area).x = innerColumns := by
    show area.x + 1 + (area.width - 2) - (area.x + 2) = 53
    omega
  have hx : (bodyArea area).x ≤ (messagePlace area).x := Nat.le_succ _
  have hless : (messagePlace area).height ≤ (bodyArea area).height :=
    Nat.sub_le_sub_left (by decide) area.height
  rw [Paragraph.letters_draw rfl (isEmpty_messagePlace hheight) hx rfl hless fun x y hbody =>
    isBlankAt_frame f hfull hfits hbody, hcolumns, ← p.rows_wrapped text]
  rfl

/-- Whether a message is drawn into a frame without a fault. -/
theorem spoiled_draw_wrapped (p : DialogPanel) (f : Frame) (text : String) (hfits : c.Fits area)
    (hheight : 6 ≤ area.height) :
    ((p.wrapped text).draw (messagePlace area) (f.draw area (c.clear area))).spoiled = false ↔
      c.spoiled = false ∧ ∀ row ∈ (wrappedRows text).take (area.height - 4),
        within (c.width - (area.x + 2)) row = drawn row := by
  have hscreen := drawnIn_clearedFrame f hfits
  have hbottom := hfits.bottom_le
  have hplace : (messagePlace area).bottom ≤ (f.draw area (c.clear area)).height := by
    rw [hscreen.height]
    simp only [Rect.bottom, messagePlace] at hbottom ⊢
    omega
  rw [Paragraph.spoiled_draw rfl (isEmpty_messagePlace hheight) hplace, hscreen.spoiled,
    hscreen.width, ← p.rows_wrapped text]
  rfl

/-- What a message dialog shows, and whether it is drawn without a fault. -/
theorem letters_drawMessage (p : DialogPanel) (title text : String) (color : Option Color)
    (hfull : c.IsFull) (hfits : c.Fits area) (hwidth : area.width = 56)
    (hheight : 6 ≤ area.height) :
    (p.drawMessage area title text color (c.clear area)).letters (bodyArea area) =
        (((wrappedRows text).take (area.height - 4)).flatMap fun row =>
          Glyph.letters (within innerColumns row)) ∧
      ((p.drawMessage area title text color (c.clear area)).spoiled = false ↔ c.spoiled = false ∧
        ∀ row ∈ (wrappedRows text).take (area.height - 4),
          within (c.width - (area.x + 2)) row = drawn row) := by
  have hright := hfits.right_le
  have hbottom := hfits.bottom_le
  simp only [Rect.right, Rect.bottom] at hright hbottom
  have hscreen := drawnIn_clearedFrame (p.frame title color) hfits
  obtain ⟨htextWidth, htextHeight⟩ := Paragraph.size_draw (p := p.wrapped text) rfl
    (isEmpty_messagePlace hheight) ((p.frame title color).draw area (c.clear area))
  -- the button stands below the text
  have hbutton := p.drawnIn_drawButton (x := middle area (Text.width (buttonText "OK")))
    (y := buttonRow area) "OK" true
    (by rw [htextWidth, hscreen.width, middle, width_okText]; omega)
    (by rw [htextHeight, hscreen.height, buttonRow]; omega)
  have hbelow : ∀ x y, (bodyArea area).contains x y = true → ¬ y = buttonRow area := by
    intro x y hbody
    simp only [Rect.contains_iff, bodyArea] at hbody
    rw [buttonRow]
    omega
  rw [drawMessage, messagePlace_eq hwidth, hbutton.spoiled,
    letters_congr fun x y hbody => hbutton.kept x y (hbelow x y hbody)]
  exact ⟨p.letters_draw_wrapped (p.frame title color) text hfull hfits hwidth hheight,
    p.spoiled_draw_wrapped (p.frame title color) text hfits hheight⟩

/-! ## When a message is shown -/

/-- Whether a screen with a dialog shows a message: it was drawn without a fault, and the letters of
the message can be read inside of the dialog. -/
def ShowsMessage (drawn : Canvas) (area : Rect) (text : String) : Prop :=
  drawn.spoiled = false ∧ drawn.letters (bodyArea area) = Glyph.letters (messageGlyphs text)

/-- What it takes to show a message in so many rows, so many columns before the right side of the
screen. -/
structure HasRoom (text : String) (count columns : Nat) : Prop where
  /-- No letter is wider than a row. -/
  narrow : ∀ g ∈ messageGlyphs text, g.isLetter = true → g.width ≤ messageColumns
  /-- The rows behind them hold no letter. -/
  rest : ∀ row ∈ (wrappedRows text).drop count, Glyph.letters row = []
  /-- The letters of the rows start inside of the dialog. -/
  inside : ∀ row ∈ (wrappedRows text).take count,
    Glyph.letters (within innerColumns row) = Glyph.letters row
  /-- The glyphs of the rows start on the screen. -/
  onScreen : ∀ row ∈ (wrappedRows text).take count, within columns row = drawn row

/-- Lists of parts are equal only if all parts are whole. -/
theorem eq_of_flatMap_eq {α β : Type} {f g : α → List β} {xs : List α}
    (hsub : ∀ a ∈ xs, (f a).Sublist (g a)) (h : xs.flatMap f = xs.flatMap g) :
    ∀ a ∈ xs, f a = g a := by
  induction xs with
  | nil => exact List.forall_mem_nil _
  | cons a xs ih =>
      rw [List.forall_mem_cons] at hsub ⊢
      rw [List.flatMap_cons, List.flatMap_cons] at h
      have hlength := congrArg List.length h
      rw [List.length_append, List.length_append] at hlength
      have hfirst := hsub.1.length_le
      have hrest := (List.Sublist.flatMap_right xs hsub.2).length_le
      have heq := hsub.1.eq_of_length (by omega)
      rw [heq] at h
      exact ⟨heq, ih hsub.2 (List.append_cancel_left h)⟩

/-- The letters of the first rows are all letters exactly if nothing is left out. -/
theorem letters_rows_eq_iff (text : String) (count : Nat) :
    (((wrappedRows text).take count).flatMap fun row => Glyph.letters (within innerColumns row)) =
        Glyph.letters (messageGlyphs text) ↔
      (∀ g ∈ messageGlyphs text, g.isLetter = true → g.width ≤ messageColumns) ∧
        (∀ row ∈ (wrappedRows text).drop count, Glyph.letters row = []) ∧
        ∀ row ∈ (wrappedRows text).take count,
          Glyph.letters (within innerColumns row) = Glyph.letters row := by
  have hsub : ∀ row ∈ (wrappedRows text).take count,
      (Glyph.letters (within innerColumns row)).Sublist (Glyph.letters row) :=
    fun row _ => letters_sublist (within_sublist innerColumns row)
  have hall := letters_wrappedRows text
  rw [← List.take_append_drop count (wrappedRows text), List.flatMap_append] at hall
  have hfits := letters_sublist (List.filter_sublist (l := messageGlyphs text)
    (p := fun g => decide (g.width ≤ messageColumns)))
  have hnarrow := letters_filter_eq_iff (messageGlyphs text)
    fun g => decide (g.width ≤ messageColumns)
  simp only [decide_eq_true_eq] at hnarrow
  rw [← hnarrow]
  constructor
  · intro h
    have hshown := (List.Sublist.flatMap_right _ hsub).length_le
    have hlength := congrArg List.length hall
    have hshort := hfits.length_le
    rw [List.length_append] at hlength
    rw [← h] at hshort
    have hrest : ((wrappedRows text).drop count).flatMap Glyph.letters = [] :=
      List.eq_nil_of_length_eq_zero (by omega)
    have htake := (List.Sublist.flatMap_right _ hsub).eq_of_length (by omega)
    refine ⟨?_, List.flatMap_eq_nil_iff.mp hrest, eq_of_flatMap_eq hsub htake⟩
    rw [← hall, hrest, List.append_nil, ← h, htake]
  · rintro ⟨hwidth, hrest, hinside⟩
    rw [List.flatMap_congr hinside, ← hwidth, ← hall, List.flatMap_eq_nil_iff.mpr hrest,
      List.append_nil]

/-- What a screen with a message shows, and whether it was drawn without a fault. -/
theorem exists_letters_draw (p : DialogPanel) (htells : p.dialog.Tells text) (hfull : c.IsFull)
    (hclean : c.spoiled = false) (hwidth : minWidth ≤ c.width) (hheight : minHeight ≤ c.height)
    (hwanted : messageHeight? text messageColumns = some wanted) (hfree : wanted ≤ most c.height) :
    ∃ area, p.dialog.area? c.area = some area ∧ c.Fits area ∧
      (p.draw c.area c).letters (bodyArea area) =
        (((wrappedRows text).take (messageRoom wanted)).flatMap fun row =>
          Glyph.letters (within innerColumns row)) ∧
      ((p.draw c.area c).spoiled = false ↔ ∀ row ∈ (wrappedRows text).take (messageRoom wanted),
        within (c.width - (area.x + 2)) row = drawn row) ∧
      area.width = 56 := by
  obtain ⟨area, harea, hfits, hareaWidth, hroom, hareaHeight⟩ :=
    exists_area?_message htells hwidth hheight hwanted hfree
  have hdrawn : ∃ title color,
      p.draw c.area c = p.drawMessage area title text color (c.clear area) := by
    have hsmall : ¬ (area.width < 4 ∨ area.height < 4) := by omega
    have hdraw : p.draw c.area c = p.drawIn area c := by
      rw [draw, harea]
    rw [hdraw, drawIn, if_neg hsmall]
    obtain ⟨title, heq | heq⟩ := htells
    · exact ⟨title, some p.palette.error, by rw [heq]⟩
    · exact ⟨title, none, by rw [heq]⟩
  obtain ⟨title, color, hdrawn⟩ := hdrawn
  obtain ⟨hletters, hspoiled⟩ := p.letters_drawMessage title text color hfull hfits hareaWidth
    hareaHeight
  rw [hroom] at hletters
  rw [hroom, hclean] at hspoiled
  rw [hdrawn]
  exact ⟨area, harea, hfits, hletters, hspoiled.trans ⟨fun h => h.2, fun h => ⟨rfl, h⟩⟩,
    hareaWidth⟩

theorem showsMessage_iff_hasRoom {drawn : Canvas}
    (hletters : drawn.letters (bodyArea area) =
      ((wrappedRows text).take count).flatMap fun row => Glyph.letters (within innerColumns row))
    (hspoiled : drawn.spoiled = false ↔ ∀ row ∈ (wrappedRows text).take count,
      within columns row = Glyph.drawn row) :
    ShowsMessage drawn area text ↔ HasRoom text count columns := by
  rw [ShowsMessage, hspoiled, hletters, letters_rows_eq_iff]
  constructor
  · rintro ⟨hon, hnarrow, hrest, hinside⟩
    exact ⟨hnarrow, hrest, hinside, hon⟩
  · rintro ⟨hnarrow, hrest, hinside, hon⟩
    exact ⟨hon, hnarrow, hrest, hinside⟩

/-- **When a message is shown**: on a screen that is large enough and has all rows that the dialog
asks for, the letters of the first rows of an error or a message are shown.  It is shown in whole
exactly if that leaves out no letter. -/
theorem messageShown_iff (p : DialogPanel) (htells : p.dialog.Tells text) (hfull : c.IsFull)
    (hclean : c.spoiled = false) (hwidth : minWidth ≤ c.width) (hheight : minHeight ≤ c.height)
    (hwanted : messageHeight? text messageColumns = some wanted) (hfree : wanted ≤ most c.height) :
    ∃ area, p.dialog.area? c.area = some area ∧ c.Fits area ∧
      (p.draw c.area c).letters (bodyArea area) =
        (((wrappedRows text).take (messageRoom wanted)).flatMap fun row =>
          Glyph.letters (within innerColumns row)) ∧
      (ShowsMessage (p.draw c.area c) area text ↔
        HasRoom text (messageRoom wanted) (c.width - (area.x + 2))) := by
  obtain ⟨area, harea, hfits, hletters, hspoiled, -⟩ :=
    p.exists_letters_draw htells hfull hclean hwidth hheight hwanted hfree
  exact ⟨area, harea, hfits, hletters, showsMessage_iff_hasRoom hletters hspoiled⟩

theorem messageShown_iff_diskFull :
    let p : DialogPanel := { dialog := .error "Engine Error" "disk full" }
    let screen := blank 80 24
    p.dialog.Tells "disk full" ∧ screen.IsFull ∧ screen.spoiled = false ∧
      minWidth ≤ screen.width ∧ minHeight ≤ screen.height ∧
      messageHeight? "disk full" messageColumns = some 6 ∧ 6 ≤ most screen.height ∧
      ∃ area, p.dialog.area? screen.area = some area ∧
        ShowsMessage (p.draw screen.area screen) area "disk full" := by
  intro p screen
  have htells : p.dialog.Tells "disk full" := ⟨"Engine Error", .inl rfl⟩
  have hfull : screen.IsFull := isFull_blank 80 24
  have hlarge : minWidth ≤ screen.width ∧ minHeight ≤ screen.height := by decide
  have hwanted : messageHeight? "disk full" messageColumns = some 6 := by decide +kernel
  have hfree : 6 ≤ most screen.height := by decide
  obtain ⟨area, harea, -, -, hiff⟩ :=
    p.messageShown_iff htells hfull rfl hlarge.1 hlarge.2 hwanted hfree
  have hplace : p.dialog.area? screen.area =
      some { x := 12, y := 9, width := 56, height := 6 } := by decide +kernel
  refine ⟨htells, hfull, rfl, hlarge.1, hlarge.2, hwanted, hfree, area, harea, hiff.mpr ?_⟩
  rw [hplace] at harea
  cases harea
  constructor <;> decide +kernel

/-- Five words of more than half a row. -/
def longWords : String :=
  " ".intercalate (List.replicate 5 (String.ofList (List.replicate 27 'w')))

/-- The last one of five long words is cut off: the dialog asks for the rows of a text that fills
three rows, of which the screen has many more. -/
theorem not_shown_longWords :
    let p : DialogPanel := { dialog := .error "Engine Error" longWords }
    let screen := blank 80 24
    minWidth ≤ screen.width ∧ minHeight ≤ screen.height ∧
      messageHeight? longWords messageColumns = some 8 ∧ 8 ≤ most screen.height ∧
      ∃ area, p.dialog.area? screen.area = some area ∧
        ¬ ShowsMessage (p.draw screen.area screen) area longWords := by
  intro p screen
  have hlarge : minWidth ≤ screen.width ∧ minHeight ≤ screen.height := by decide
  have hwanted : messageHeight? longWords messageColumns = some 8 := by decide +kernel
  have hfree : 8 ≤ most screen.height := by decide
  obtain ⟨area, harea, -, hletters, -, -⟩ := p.exists_letters_draw ⟨"Engine Error", .inl rfl⟩
    (isFull_blank 80 24) rfl hlarge.1 hlarge.2 hwanted hfree
  refine ⟨hlarge.1, hlarge.2, hwanted, hfree, area, harea, fun hshows => ?_⟩
  have hrest := ((letters_rows_eq_iff longWords 4).mp (hletters.symm.trans hshows.2)).2.1
  have hlast : ¬ ∀ row ∈ (wrappedRows longWords).drop 4, Glyph.letters row = [] := by
    decide +kernel
  exact hlast hrest

/-! ## Messages that are shown -/

/-- The rows that lines need at most, when words have so many columns at most. -/
def linesBound (longest : Nat) (lines : List String) : Nat :=
  lines.foldr (fun line rows =>
    rowBound messageColumns longest (totalWidth (lineGlyphs line)) + rows) 0

theorem length_wrappedRows_le {longest : Nat}
    (hglyphs : ∀ g ∈ messageGlyphs text, 0 < g.width ∧ g.width ≤ 2)
    (hwords : ∀ line ∈ Text.lines text, longestWord (lineGlyphs line) ≤ longest)
    (hpos : 0 < longest) (hlt : longest < messageColumns) :
    (wrappedRows text).length ≤ linesBound longest (Text.lines text) := by
  rw [messageGlyphs] at hglyphs
  rw [wrappedRows]
  generalize Text.lines text = lines at hglyphs hwords
  induction lines with
  | nil => exact Nat.le_refl 0
  | cons line lines ih =>
      rw [List.flatMap_cons, List.forall_mem_append] at hglyphs
      rw [List.forall_mem_cons] at hwords
      have hline := length_wrapLine_le_rowBound hglyphs.1 (by decide) hwords.1 hpos hlt
      have hrest := ih hglyphs.2 hwords.2
      rw [List.flatMap_cons, List.length_append]
      exact Nat.add_le_add hline hrest

/-- Glyphs of one or two columns start inside of the dialog. -/
theorem within_wrappedRows (hglyphs : ∀ g ∈ messageGlyphs text, 0 < g.width ∧ g.width ≤ 2)
    (hcolumns : innerColumns ≤ columns) :
    ∀ row ∈ wrappedRows text, within columns row = row ∧ drawn row = row := by
  intro row hrow
  obtain ⟨line, hline, hrow⟩ := List.mem_flatMap.mp hrow
  have hline' : ∀ g ∈ lineGlyphs line, 0 < g.width ∧ g.width ≤ 2 :=
    fun g hg => hglyphs g (List.mem_flatMap.mpr ⟨line, hline, hg⟩)
  have hpos : ∀ g ∈ row, 0 < g.width := by
    intro g hg
    refine (hline' g ?_).1
    exact (flatten_wrapLine_sublist (fun g hg => Nat.le_trans (hline' g hg).2 (by decide))
      true).subset (List.mem_flatten_of_mem hrow hg)
  have hstarts := totalWidth_dropLast_le hline' (by decide) row hrow
  refine ⟨within_eq_self hpos ?_, drawn_eq_self hpos⟩
  exact Nat.lt_of_le_of_lt hstarts hcolumns

/-- A message of glyphs of one or two columns is shown if its dialog has the rows that its lines
need when each of their rows but the last one misses a word. -/
theorem messageShown_of_rowBound {longest : Nat} (p : DialogPanel) (htells : p.dialog.Tells text)
    (hfull : c.IsFull) (hclean : c.spoiled = false) (hwidth : minWidth ≤ c.width)
    (hheight : minHeight ≤ c.height)
    (hwanted : messageHeight? text messageColumns = some wanted) (hfree : wanted ≤ most c.height)
    (hglyphs : ∀ g ∈ messageGlyphs text, 0 < g.width ∧ g.width ≤ 2)
    (hwords : ∀ line ∈ Text.lines text, longestWord (lineGlyphs line) ≤ longest)
    (hpos : 0 < longest) (hlt : longest < messageColumns)
    (hrows : linesBound longest (Text.lines text) ≤ messageRoom wanted) :
    ∃ area, p.dialog.area? c.area = some area ∧
      ShowsMessage (p.draw c.area c) area text := by
  obtain ⟨area, harea, hfits, hletters, hspoiled, hareaWidth⟩ :=
    p.exists_letters_draw htells hfull hclean hwidth hheight hwanted hfree
  refine ⟨area, harea, (showsMessage_iff_hasRoom hletters hspoiled).mpr ?_⟩
  have hlength := Nat.le_trans (length_wrappedRows_le hglyphs hwords hpos hlt) hrows
  refine ⟨?_, ?_, ?_, ?_⟩
  · exact fun g hg _ => Nat.le_trans (hglyphs g hg).2 (by decide)
  · rw [List.drop_eq_nil_of_le hlength]
    exact List.forall_mem_nil _
  · intro row hrow
    rw [(within_wrappedRows hglyphs (Nat.le_refl _) row (List.mem_of_mem_take hrow)).1]
  · intro row hrow
    have hcolumns : innerColumns ≤ c.width - (area.x + 2) := by
      have hright := hfits.right_le
      rw [Rect.right, hareaWidth] at hright
      show 53 ≤ c.width - (area.x + 2)
      omega
    obtain ⟨hwithin, hdrawn⟩ :=
      within_wrappedRows hglyphs hcolumns row (List.mem_of_mem_take hrow)
    exact hwithin.trans hdrawn.symm

end DialogPanel

end InstallerBrowser
