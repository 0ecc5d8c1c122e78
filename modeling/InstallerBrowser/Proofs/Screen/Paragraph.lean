import InstallerBrowser.Proofs.Screen.Canvas
import InstallerBrowser.Proofs.Screen.Wrapping

/-!
# InstallerBrowser.Proofs.Screen.Paragraph

What can be read on a screen where a paragraph was drawn.

A row is drawn glyph by glyph from its column on, so the columns in sight show the glyphs that
start in them (`rowLetters_drawRow`), and a rectangle shows the rows of a paragraph that it has
room for (`letters_draw`).
-/

namespace InstallerBrowser

/-! ## Columns in sight -/

namespace Glyph

variable {g : Glyph} {row : List Glyph} {left : Nat}

/-- The glyphs of a row that take a column. -/
def drawn (row : List Glyph) : List Glyph := row.filter fun g => 0 < g.width

/-- The glyphs of a row that start in its first columns, so many of them. -/
def within : Nat → List Glyph → List Glyph
  | _, [] => []
  | left, g :: rest =>
    if g.width = 0 then within left rest
    else if left = 0 then []
    else g :: within (left - g.width) rest

theorem letters_cons (g : Glyph) (row : List Glyph) :
    letters (g :: row) = letters [g] ++ letters row :=
  letters_append [g] row

theorem letters_symbol (g : Glyph) : letters [{ symbol := g.symbol }] = letters [g] := by
  have hletter : isLetter { symbol := g.symbol } = g.isLetter := rfl
  rw [letters, letters, List.filter_singleton, List.filter_singleton, hletter]
  cases g.isLetter <;> rfl

theorem within_sublist (left : Nat) (row : List Glyph) : (within left row).Sublist row := by
  induction row generalizing left with
  | nil => exact List.nil_sublist _
  | cons g rest ih =>
      rw [within]
      split
      · exact (ih left).cons g
      · split
        · exact List.nil_sublist _
        · exact (ih _).cons_cons g

/-- A row in sight: none of its glyphs starts behind the columns. -/
theorem within_eq_self (hpos : ∀ g ∈ row, 0 < g.width) (h : totalWidth row.dropLast < left) :
    within left row = row := by
  induction row generalizing left with
  | nil => rfl
  | cons g rest ih =>
      have hg := hpos g List.mem_cons_self
      have hleft : 0 < left := Nat.zero_lt_of_lt h
      rw [within, if_neg (Nat.pos_iff_ne_zero.mp hg), if_neg (Nat.pos_iff_ne_zero.mp hleft)]
      cases rest with
      | nil => rfl
      | cons g' rest =>
          rw [List.dropLast_cons_cons, totalWidth_cons] at h
          rw [ih (fun g hg => hpos g (List.mem_cons_of_mem _ hg)) (by omega)]

theorem drawn_eq_self (hpos : ∀ g ∈ row, 0 < g.width) : drawn row = row :=
  List.filter_eq_self.mpr fun g hg => decide_eq_true (hpos g hg)

end Glyph

/-! ## Reading -/

namespace Canvas

variable {c c' : Canvas} {x x' y y' n left : Nat} {r : Rect}

/-- The letter that a cell shows, if it shows one. -/
def letterAt (c : Canvas) (x y : Nat) : List String :=
  Glyph.letters [{ symbol := ((c.get? x y).getD {}).symbol }]

/-- The letters of a row from a column on. -/
def rowLetters (c : Canvas) (y x n : Nat) : List String :=
  (List.range' x n).flatMap fun x => c.letterAt x y

/-- The letters in a rectangle, row by row. -/
def letters (c : Canvas) (r : Rect) : List String :=
  (List.range' r.y r.height).flatMap fun y => c.rowLetters y r.x r.width

/-- Whether a cell is there and shows no letter. -/
def IsBlankAt (c : Canvas) (x y : Nat) : Prop :=
  ∃ cell, c.get? x y = some cell ∧ Glyph.letters [{ symbol := cell.symbol }] = []

theorem IsBlankAt.letterAt (h : c.IsBlankAt x y) : c.letterAt x y = [] := by
  obtain ⟨cell, hcell, hblank⟩ := h
  rw [Canvas.letterAt, hcell]
  exact hblank

theorem IsBlankAt.congr (h : c.IsBlankAt x y) (heq : c'.get? x y = c.get? x y) :
    c'.IsBlankAt x y := by
  rwa [IsBlankAt, heq]

theorem IsBlankAt.restyle (h : c.IsBlankAt x y) (r : Rect) (s : Style) :
    (c.restyle r s).IsBlankAt x y := by
  obtain ⟨cell, hcell, hblank⟩ := h
  rw [IsBlankAt, get?_restyle, hcell]
  split
  · exact ⟨_, rfl, hblank⟩
  · exact ⟨cell, rfl, hblank⟩

theorem letterAt_congr (h : c'.get? x y = c.get? x y) : c'.letterAt x y = c.letterAt x y := by
  rw [letterAt, letterAt, h]

theorem rowLetters_congr (h : ∀ i, x ≤ i → i < x + n → c'.get? i y = c.get? i y) :
    c'.rowLetters y x n = c.rowLetters y x n := by
  refine List.flatMap_congr fun i hi => ?_
  rw [List.mem_range'_1] at hi
  exact letterAt_congr (h i hi.1 hi.2)

theorem letters_congr (h : ∀ x y, r.contains x y = true → c'.get? x y = c.get? x y) :
    c'.letters r = c.letters r := by
  refine List.flatMap_congr fun y hy => rowLetters_congr fun x hx hx' => h x y ?_
  rw [List.mem_range'_1] at hy
  exact Rect.contains_iff.mpr ⟨hx, hx', hy.1, hy.2⟩

theorem rowLetters_add (c : Canvas) (y x m n : Nat) :
    c.rowLetters y x (m + n) = c.rowLetters y x m ++ c.rowLetters y (x + m) n := by
  rw [rowLetters, rowLetters, rowLetters, ← List.flatMap_append, List.range'_append_1]

theorem rowLetters_eq_nil (h : ∀ i, x ≤ i → i < x + n → c.letterAt i y = []) :
    c.rowLetters y x n = [] := by
  rw [rowLetters, List.flatMap_eq_nil_iff]
  intro i hi
  rw [List.mem_range'_1] at hi
  exact h i hi.1 hi.2

/-- Columns without letters are skipped. -/
theorem rowLetters_skip (m : Nat) (h : ∀ i, x ≤ i → i < x + m → i < x + n → c.letterAt i y = []) :
    c.rowLetters y x n = c.rowLetters y (x + m) (n - m) := by
  by_cases hm : m ≤ n
  · obtain ⟨d, rfl⟩ := Nat.exists_eq_add_of_le hm
    rw [rowLetters_add, rowLetters_eq_nil fun i hi hi' => h i hi hi' (by omega), List.nil_append,
      Nat.add_sub_cancel_left]
  · rw [rowLetters_eq_nil fun i hi hi' => h i hi (by omega) hi', Nat.sub_eq_zero_of_le (by omega)]
    rfl

end Canvas

/-! ## Rows -/

namespace Paragraph

open Canvas Glyph

variable {c : Canvas} {row : List Glyph} {rows : List (List Glyph)} {x x' y y' k n left start : Nat}

theorem size_drawRow (y : Nat) (row : List Glyph) (x : Nat) (c : Canvas) :
    (drawRow y row x c).width = c.width ∧ (drawRow y row x c).height = c.height := by
  induction row generalizing x c with
  | nil => exact ⟨rfl, rfl⟩
  | cons g rest ih =>
      rw [drawRow]
      split
      · exact ih x c
      · rw [(ih _ _).1, (ih _ _).2, width_draw, height_draw]
        exact ⟨rfl, rfl⟩

/-- A row is drawn from its column on. -/
theorem get?_drawRow (h : y' ≠ y ∨ x' < x) :
    (drawRow y row x c).get? x' y' = c.get? x' y' := by
  induction row generalizing x c with
  | nil => rfl
  | cons g rest ih =>
      rw [drawRow]
      split
      · exact ih h
      · rw [ih (by omega), get?_draw, if_neg (by omega)]

theorem letterAt_draw (g : Glyph) (hcell : c.IsBlankAt x y) :
    (c.draw x y fun cell => { cell with symbol := g.symbol }.restyle g.style).letterAt x y =
      Glyph.letters [g] := by
  obtain ⟨cell, hcell, -⟩ := hcell
  rw [letterAt, get?_draw, if_pos ⟨rfl, rfl⟩, hcell]
  exact letters_symbol g

/-- Blank columns show the glyphs of a row that start in them. -/
theorem rowLetters_drawRow (hblank : ∀ i, x ≤ i → i < x + left → c.IsBlankAt i y) :
    (drawRow y row x c).rowLetters y x left = Glyph.letters (within left row) := by
  induction row generalizing x left c with
  | nil => exact rowLetters_eq_nil fun i hi hi' => (hblank i hi hi').letterAt
  | cons g rest ih =>
      rw [drawRow, within]
      split
      · exact ih hblank
      · next hwidth =>
          cases left with
          | zero => rfl
          | succ left =>
              let put (cell : Cell) : Cell := { cell with symbol := g.symbol }.restyle g.style
              have hother : ∀ i, i ≠ x → (c.draw x y put).get? i y = c.get? i y :=
                fun i hi => by rw [get?_draw, if_neg fun h => hi h.1]
              have hfirst : (drawRow y rest (x + g.width) (c.draw x y put)).letterAt x y =
                  Glyph.letters [g] := by
                rw [letterAt_congr (get?_drawRow (.inr (by omega))),
                  letterAt_draw g (hblank x (Nat.le_refl x) (by omega))]
              -- the columns behind the first one of a wide glyph stay blank
              have hbehind : ∀ i, x + 1 ≤ i → i < x + 1 + (g.width - 1) → i < x + 1 + left →
                  (drawRow y rest (x + g.width) (c.draw x y put)).letterAt i y = [] := by
                intro i hi hi' hleft
                rw [letterAt_congr ((get?_drawRow (.inr (by omega))).trans (hother i (by omega)))]
                exact (hblank i (by omega) (by omega)).letterAt
              have hrest : (drawRow y rest (x + g.width) (c.draw x y put)).rowLetters y
                  (x + g.width) (left + 1 - g.width) =
                    Glyph.letters (within (left + 1 - g.width) rest) := by
                refine ih fun i hi hi' => ?_
                exact (hblank i (by omega) (by omega)).congr (hother i (by omega))
              rw [if_neg (Nat.succ_ne_zero left), letters_cons, ← hrest, Nat.add_comm left 1,
                rowLetters_add, rowLetters, List.range'_one, List.flatMap_singleton, hfirst,
                rowLetters_skip (g.width - 1) hbehind]
              congr 2 <;> omega

/-- A row whose column lies in the middle of blank ones. -/
theorem rowLetters_drawRow_of_le (hx : start ≤ x)
    (hblank : ∀ i, start ≤ i → i < start + n → c.IsBlankAt i y) :
    (drawRow y row x c).rowLetters y start n =
      Glyph.letters (within (start + n - x) row) := by
  have hbefore : ∀ i, start ≤ i → i < start + (x - start) → i < start + n →
      (drawRow y row x c).letterAt i y = [] := by
    intro i hi hi' hn
    rw [letterAt_congr (get?_drawRow (.inr (by omega)))]
    exact (hblank i hi hn).letterAt
  rw [rowLetters_skip (x - start) hbefore, Nat.add_sub_cancel' hx,
    show n - (x - start) = start + n - x by omega]
  exact rowLetters_drawRow fun i hi hi' => hblank i (by omega) (by omega)

/-- A row is drawn on the screen if all of its glyphs start there. -/
theorem spoiled_drawRow (hy : y < c.height) : (drawRow y row x c).spoiled = false ↔
    c.spoiled = false ∧ within (c.width - x) row = drawn row := by
  induction row generalizing x c with
  | nil => exact ⟨fun h => ⟨h, rfl⟩, fun h => h.1⟩
  | cons g rest ih =>
      rw [drawRow, within, drawn]
      split
      · next hwidth =>
          rw [List.filter_cons_of_neg (by simp [hwidth])]
          exact ih hy
      · next hwidth =>
          rw [List.filter_cons_of_pos (by simpa using Nat.pos_of_ne_zero hwidth),
            ih (by rwa [height_draw]), width_draw, Canvas.draw]
          by_cases hx : x < c.width
          · rw [if_pos ⟨hx, hy⟩, if_neg (Nat.sub_ne_zero_of_lt hx), ← Nat.sub_sub]
            exact and_congr_right fun _ =>
              ⟨congrArg (g :: ·), fun h => (List.cons.inj h).2⟩
          · rw [if_neg fun h => hx h.1, if_pos (Nat.sub_eq_zero_of_le (Nat.le_of_not_lt hx))]
            exact ⟨fun h => absurd h.1 Bool.noConfusion,
              fun h => absurd h.2.symm (List.cons_ne_nil _ _)⟩

/-! ## Paragraphs -/

/-- Draws rows below each other, each under its number. -/
def drawRows (y x : Nat) (rows : List (List Glyph × Nat)) (c : Canvas) : Canvas :=
  rows.foldl (fun c (row, i) => drawRow (y + i) row x c) c

theorem drawRows_cons (y x k : Nat) (row : List Glyph) (rows : List (List Glyph)) (c : Canvas) :
    drawRows y x ((row :: rows).zipIdx k) c =
      drawRows y x (rows.zipIdx (k + 1)) (drawRow (y + k) row x c) := rfl

theorem draw_eq_drawRows {p : Paragraph} (hleft : p.alignment = .left) {area : Rect}
    (harea : area.isEmpty = false) (c : Canvas) :
    p.draw area c = drawRows area.y area.x ((p.rows area.width).take area.height).zipIdx
      (c.restyle area p.style) := by
  rw [draw, if_neg (by simp [harea]), hleft]
  rfl

theorem size_drawRows (y x k : Nat) (rows : List (List Glyph)) (c : Canvas) :
    (drawRows y x (rows.zipIdx k) c).width = c.width ∧
      (drawRows y x (rows.zipIdx k) c).height = c.height := by
  induction rows generalizing k c with
  | nil => exact ⟨rfl, rfl⟩
  | cons row rows ih =>
      obtain ⟨hwidth, hheight⟩ := size_drawRow (y + k) row x c
      rw [drawRows_cons, (ih _ _).1, (ih _ _).2, hwidth, hheight]
      exact ⟨rfl, rfl⟩

/-- Rows are drawn from their first one on. -/
theorem get?_drawRows (h : y' < y + k) :
    (drawRows y x (rows.zipIdx k) c).get? x' y' = c.get? x' y' := by
  induction rows generalizing k c with
  | nil => rfl
  | cons row rows ih =>
      rw [drawRows_cons, ih (by omega), get?_drawRow (.inl (by omega))]

/-- A blank rectangle shows the rows that are drawn from its first row on. -/
theorem letters_drawRows (hx : start ≤ x) (hrows : rows.length ≤ n)
    (hblank : ∀ i j, start ≤ i → i < start + left → y + k ≤ j → j < y + k + n → c.IsBlankAt i j) :
    (List.range' (y + k) n).flatMap (fun j =>
        (drawRows y x (rows.zipIdx k) c).rowLetters j start left) =
      rows.flatMap fun row => Glyph.letters (within (start + left - x) row) := by
  induction rows generalizing k n c with
  | nil =>
      rw [List.flatMap_nil, List.flatMap_eq_nil_iff]
      intro j hj
      rw [List.mem_range'_1] at hj
      exact rowLetters_eq_nil fun i hi hi' => (hblank i j hi hi' hj.1 hj.2).letterAt
  | cons row rows ih =>
      cases n with
      | zero => cases hrows
      | succ n =>
          have hfirst : (drawRows y x ((row :: rows).zipIdx k) c).rowLetters (y + k) start left =
              Glyph.letters (within (start + left - x) row) := by
            rw [drawRows_cons, rowLetters_congr fun i _ _ => get?_drawRows (by omega)]
            exact rowLetters_drawRow_of_le hx fun i hi hi' =>
              hblank i (y + k) hi hi' (Nat.le_refl _) (by omega)
          rw [List.range'_succ, List.flatMap_cons, List.flatMap_cons, hfirst, drawRows_cons]
          refine congrArg (_ ++ ·) (ih (k := k + 1) (Nat.le_of_succ_le_succ hrows) ?_)
          intro i j hi hi' hj hj'
          exact (hblank i j hi hi' (by omega) (by omega)).congr (get?_drawRow (.inl (by omega)))

theorem spoiled_drawRows (hy : y + k + rows.length ≤ c.height) :
    (drawRows y x (rows.zipIdx k) c).spoiled = false ↔
      c.spoiled = false ∧ ∀ row ∈ rows, within (c.width - x) row = drawn row := by
  induction rows generalizing k c with
  | nil => exact ⟨fun h => ⟨h, List.forall_mem_nil _⟩, fun h => h.1⟩
  | cons row rows ih =>
      rw [List.length_cons] at hy
      obtain ⟨hwidth, hheight⟩ := size_drawRow (y + k) row x c
      rw [drawRows_cons, ih (by omega), hwidth, spoiled_drawRow (by omega), List.forall_mem_cons,
        and_assoc]

variable {p : Paragraph} {area r : Rect}

theorem size_draw (hleft : p.alignment = .left) (harea : area.isEmpty = false) (c : Canvas) :
    (p.draw area c).width = c.width ∧ (p.draw area c).height = c.height := by
  have hstyle := drawnIn_restyle c area p.style
  rw [draw_eq_drawRows hleft harea, (size_drawRows _ _ _ _ _).1, (size_drawRows _ _ _ _ _).2]
  exact ⟨hstyle.width, hstyle.height⟩

/-- A blank rectangle around a paragraph shows the rows that there is room for. -/
theorem letters_draw (hleft : p.alignment = .left) (harea : area.isEmpty = false)
    (hx : r.x ≤ area.x) (hy : r.y = area.y) (hheight : area.height ≤ r.height)
    (hblank : ∀ x y, r.contains x y = true → c.IsBlankAt x y) :
    (p.draw area c).letters r = ((p.rows area.width).take area.height).flatMap fun row =>
      Glyph.letters (within (r.right - area.x) row) := by
  have hrows : ((p.rows area.width).take area.height).length ≤ r.height :=
    Nat.le_trans (List.length_take_le _ _) hheight
  rw [draw_eq_drawRows hleft harea, Canvas.letters, hy]
  refine letters_drawRows (k := 0) hx hrows fun i j hi hi' hj hj' => ?_
  refine (hblank i j (Rect.contains_iff.mpr ⟨hi, hi', ?_⟩)).restyle area p.style
  omega

/-- A paragraph is drawn on the screen if all glyphs of these rows start there. -/
theorem spoiled_draw (hleft : p.alignment = .left) (harea : area.isEmpty = false)
    (hbottom : area.bottom ≤ c.height) : (p.draw area c).spoiled = false ↔
      c.spoiled = false ∧ ∀ row ∈ (p.rows area.width).take area.height,
        within (c.width - area.x) row = drawn row := by
  have hstyle := drawnIn_restyle c area p.style
  have hlength := List.length_take_le area.height (p.rows area.width)
  rw [Rect.bottom] at hbottom
  rw [draw_eq_drawRows hleft harea, spoiled_drawRows (k := 0) (by rw [hstyle.height]; omega),
    hstyle.spoiled, hstyle.width]

end Paragraph

end InstallerBrowser
