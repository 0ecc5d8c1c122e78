import InstallerBrowser.Proofs.Screen.Layout
import InstallerBrowser.Screen.Frame
import Mathlib.Data.List.Nodup

/-!
# InstallerBrowser.Proofs.Screen.Canvas

What drawing does to the cells of a screen.

Drawing into a cell changes that cell alone (`get?_draw`), so drawing into a rectangle changes each
of its cells once (`get?_drawArea`).  For what draws many things it is enough to know where: a
`DrawnIn` relation holds of a whole drawing if it holds of its parts, and tells that other cells are
as they were and that nothing was drawn outside of the screen.
-/

namespace InstallerBrowser

namespace Canvas

variable {c c' c'' : Canvas} {x y x' y' width limit left : Nat} {f : Cell → Cell} {r : Rect}
  {s : Style} {P Q : Nat → Nat → Prop}

/-! ## Cells -/

/-- Whether a screen has all of its cells. -/
def IsFull (c : Canvas) : Prop := c.cells.size = c.width * c.height

theorem isFull_blank (width height : Nat) : (blank width height).IsFull := Array.size_replicate

/-- The number of a cell tells its place. -/
theorem index_inj (hx : x < width) (hx' : x' < width) (h : y * width + x = y' * width + x') :
    x = x' ∧ y = y' := by
  have hpos : 0 < width := Nat.zero_lt_of_lt hx
  rw [Nat.mul_comm y, Nat.mul_comm y'] at h
  have hmod := congrArg (· % width) h
  have hdiv := congrArg (· / width) h
  simp only [Nat.mul_add_mod, Nat.mod_eq_of_lt hx, Nat.mod_eq_of_lt hx'] at hmod
  simp only [Nat.mul_add_div hpos, Nat.div_eq_of_lt hx, Nat.div_eq_of_lt hx', Nat.add_zero] at hdiv
  exact ⟨hmod, hdiv⟩

theorem get?_modify (c : Canvas) (x y x' y' : Nat) (f : Cell → Cell) :
    (c.modify x y f).get? x' y' =
      if x' = x ∧ y' = y then (c.get? x' y').map f else c.get? x' y' := by
  by_cases hin : x < c.width ∧ y < c.height
  · rw [modify, if_pos hin, get?, get?]
    dsimp only
    by_cases hin' : x' < c.width ∧ y' < c.height
    · rw [if_pos hin', if_pos hin', Array.getElem?_modify]
      by_cases hsame : x' = x ∧ y' = y
      · obtain ⟨rfl, rfl⟩ := hsame
        rw [if_pos rfl, if_pos ⟨rfl, rfl⟩]
      · rw [if_neg hsame, if_neg fun h => hsame (index_inj hin'.1 hin.1 h.symm)]
    · rw [if_neg hin', if_neg hin', Option.map_none, ite_self]
  · rw [modify, if_neg hin]
    split
    · next h =>
      obtain ⟨rfl, rfl⟩ := h
      rw [get?, if_neg hin, Option.map_none]
    · rfl

theorem get?_spoil (c : Canvas) (x y : Nat) : c.spoil.get? x y = c.get? x y := rfl

theorem draw_eq (hx : x < c.width) (hy : y < c.height) (f : Cell → Cell) :
    c.draw x y f = c.modify x y f := by
  rw [draw, modify, if_pos ⟨hx, hy⟩, if_pos ⟨hx, hy⟩]

theorem get?_draw (c : Canvas) (x y x' y' : Nat) (f : Cell → Cell) :
    (c.draw x y f).get? x' y' =
      if x' = x ∧ y' = y then (c.get? x' y').map f else c.get? x' y' := by
  rw [← get?_modify]
  by_cases hin : x < c.width ∧ y < c.height
  · rw [draw_eq hin.1 hin.2]
  · rw [draw, if_neg hin, get?_spoil, modify, if_neg hin]

theorem width_draw (c : Canvas) (x y : Nat) (f : Cell → Cell) :
    (c.draw x y f).width = c.width := by
  rw [draw]
  split <;> rfl

theorem height_draw (c : Canvas) (x y : Nat) (f : Cell → Cell) :
    (c.draw x y f).height = c.height := by
  rw [draw]
  split <;> rfl

/-- A full screen has a cell at each of its places. -/
theorem IsFull.exists_get? (h : c.IsFull) (hx : x < c.width) (hy : y < c.height) :
    ∃ cell, c.get? x y = some cell := by
  have hindex : y * c.width + x < c.cells.size := by
    rw [h]
    have hrow := Nat.mul_le_mul_right c.width (Nat.succ_le_of_lt hy)
    rw [Nat.succ_mul, Nat.mul_comm c.height] at hrow
    omega
  rw [get?, if_pos ⟨hx, hy⟩, Array.getElem?_eq_getElem hindex]
  exact ⟨_, rfl⟩

theorem get?_eq_none (h : ¬ (x < c.width ∧ y < c.height)) : c.get? x y = none := if_neg h

/-! ## Where something is drawn -/

/-- Whether a screen is another one on which something was drawn into some cells, none of them
outside of it. -/
structure DrawnIn (P : Nat → Nat → Prop) (c c' : Canvas) : Prop where
  width : c'.width = c.width
  height : c'.height = c.height
  size : c'.cells.size = c.cells.size
  spoiled : c'.spoiled = c.spoiled
  kept : ∀ x y, ¬ P x y → c'.get? x y = c.get? x y

theorem drawnIn_refl (P : Nat → Nat → Prop) (c : Canvas) : DrawnIn P c c :=
  ⟨rfl, rfl, rfl, rfl, fun _ _ _ => rfl⟩

theorem DrawnIn.trans (h : DrawnIn P c c') (h' : DrawnIn P c' c'') : DrawnIn P c c'' where
  width := h'.width.trans h.width
  height := h'.height.trans h.height
  size := h'.size.trans h.size
  spoiled := h'.spoiled.trans h.spoiled
  kept x y hp := (h'.kept x y hp).trans (h.kept x y hp)

theorem DrawnIn.mono (h : DrawnIn P c c') (hmore : ∀ x y, P x y → Q x y) : DrawnIn Q c c' :=
  ⟨h.width, h.height, h.size, h.spoiled, fun x y hq => h.kept x y fun hp => hq (hmore x y hp)⟩

theorem DrawnIn.isFull (h : DrawnIn P c c') (hfull : c.IsFull) : c'.IsFull := by
  rw [IsFull, h.size, h.width, h.height]
  exact hfull

theorem drawnIn_modify (c : Canvas) (f : Cell → Cell) (hp : P x y) :
    DrawnIn P c (c.modify x y f) := by
  have hkept : ∀ x' y', ¬ P x' y' → (c.modify x y f).get? x' y' = c.get? x' y' := by
    intro x' y' hout
    rw [get?_modify, if_neg]
    rintro ⟨rfl, rfl⟩
    exact hout hp
  rw [modify] at hkept ⊢
  split
  · next h =>
      rw [if_pos h] at hkept
      exact ⟨rfl, rfl, Array.size_modify, rfl, hkept⟩
  · exact drawnIn_refl P c

theorem drawnIn_draw (f : Cell → Cell) (hx : x < c.width) (hy : y < c.height) (hp : P x y) :
    DrawnIn P c (c.draw x y f) := by
  rw [draw_eq hx hy]
  exact drawnIn_modify c f hp

/-- Drawing one thing after another. -/
theorem drawnIn_foldl {α : Type} {xs : List α} {g : Canvas → α → Canvas}
    (h : ∀ a ∈ xs, ∀ d : Canvas, d.width = c.width → d.height = c.height → DrawnIn P d (g d a)) :
    DrawnIn P c (xs.foldl g c) := by
  induction xs generalizing c with
  | nil => exact drawnIn_refl P c
  | cons a xs ih =>
      have hfirst := h a List.mem_cons_self c rfl rfl
      refine hfirst.trans (ih fun b hb d hwidth hheight => ?_)
      exact h b (List.mem_cons_of_mem a hb) d (hwidth.trans hfirst.width)
        (hheight.trans hfirst.height)

/-! ## Rectangles -/

theorem mem_columns : x ∈ r.columns ↔ r.x ≤ x ∧ x < r.x + r.width := by
  simp only [Rect.columns, List.mem_map, List.mem_range]
  constructor
  · rintro ⟨i, hi, rfl⟩
    omega
  · rintro ⟨hle, hlt⟩
    exact ⟨x - r.x, by omega, by omega⟩

theorem mem_rows : y ∈ r.rows ↔ r.y ≤ y ∧ y < r.y + r.height := by
  simp only [Rect.rows, List.mem_map, List.mem_range]
  constructor
  · rintro ⟨i, hi, rfl⟩
    omega
  · rintro ⟨hle, hlt⟩
    exact ⟨y - r.y, by omega, by omega⟩

theorem nodup_columns (r : Rect) : r.columns.Nodup :=
  List.Nodup.map (fun _ _ h => Nat.add_left_cancel h) List.nodup_range

theorem nodup_rows (r : Rect) : r.rows.Nodup :=
  List.Nodup.map (fun _ _ h => Nat.add_left_cancel h) List.nodup_range

theorem contains_intersect {a b : Rect} :
    (a.intersect b).contains x y = true ↔ a.contains x y = true ∧ b.contains x y = true := by
  simp only [Rect.contains_iff, Rect.intersect, Rect.right, Rect.bottom]
  omega

theorem contains_area : c.area.contains x y = true ↔ x < c.width ∧ y < c.height := by
  simp [Rect.contains_iff, area]

/-- Drawing something into each cell of a row changes each of them once. -/
theorem get?_foldl_draw {xs : List Nat} (h : xs.Nodup) (c : Canvas) (y : Nat) (f : Cell → Cell) :
    (xs.foldl (fun c x => c.draw x y f) c).get? x' y' =
      if x' ∈ xs ∧ y' = y then (c.get? x' y').map f else c.get? x' y' := by
  induction xs generalizing c with
  | nil => simp
  | cons x xs ih =>
      obtain ⟨hx, hnodup⟩ := List.nodup_cons.mp h
      rw [List.foldl_cons, ih hnodup, get?_draw]
      by_cases hxx : x' = x
      · subst hxx
        simp [hx]
      · simp [hxx]

theorem get?_drawArea (c : Canvas) (r : Rect) (f : Cell → Cell) :
    (c.drawArea r f).get? x' y' =
      if r.contains x' y' = true then (c.get? x' y').map f else c.get? x' y' := by
  have hrows : ∀ (ys : List Nat), ys.Nodup → ∀ c : Canvas,
      (ys.foldl (fun c y => r.columns.foldl (fun c x => c.draw x y f) c) c).get? x' y' =
        if x' ∈ r.columns ∧ y' ∈ ys then (c.get? x' y').map f else c.get? x' y' := by
    intro ys hnodup
    induction ys with
    | nil => simp
    | cons y ys ih =>
        intro c
        obtain ⟨hy, hnodup⟩ := List.nodup_cons.mp hnodup
        rw [List.foldl_cons, ih hnodup, get?_foldl_draw (nodup_columns r)]
        by_cases hyy : y' = y
        · subst hyy
          simp [hy]
        · simp [hyy]
  rw [drawArea, hrows _ (nodup_rows r)]
  simp only [mem_columns, mem_rows, Rect.contains_iff, and_assoc]

/-- Whether a rectangle lies on a screen. -/
def Holds (c : Canvas) (r : Rect) : Prop :=
  ∀ x y, r.contains x y = true → x < c.width ∧ y < c.height

theorem Holds.of_drawnIn (h : c.Holds r) (hdrawn : DrawnIn P c c') : c'.Holds r := by
  rw [Holds, hdrawn.width, hdrawn.height]
  exact h

theorem drawnIn_drawArea (f : Cell → Cell) (hin : c.Holds r) :
    DrawnIn (fun x y => r.contains x y = true) c (c.drawArea r f) := by
  refine drawnIn_foldl fun y hy d hwidth hheight => ?_
  refine drawnIn_foldl fun x hx d' hwidth' hheight' => ?_
  rw [mem_columns] at hx
  rw [mem_rows] at hy
  have hcell : r.contains x y = true := Rect.contains_iff.mpr ⟨hx.1, hx.2, hy⟩
  obtain ⟨hx', hy'⟩ := hin x y hcell
  exact drawnIn_draw f (by omega) (by omega) hcell

theorem get?_restyle (c : Canvas) (r : Rect) (s : Style) :
    (c.restyle r s).get? x y =
      if r.contains x y = true then (c.get? x y).map fun cell => cell.restyle s
      else c.get? x y := by
  rw [restyle, get?_drawArea]
  by_cases hin : x < c.width ∧ y < c.height
  · simp only [contains_intersect, contains_area, hin, and_true]
  · rw [get?_eq_none hin]
    simp

theorem drawnIn_restyle (c : Canvas) (r : Rect) (s : Style) :
    DrawnIn (fun x y => r.contains x y = true) c (c.restyle r s) :=
  (drawnIn_drawArea _ fun _ _ h => contains_area.mp (contains_intersect.mp h).2).mono
    fun _ _ h => (contains_intersect.mp h).1

theorem get?_clear (c : Canvas) (r : Rect) :
    (c.clear r).get? x y =
      if r.contains x y = true then (c.get? x y).map fun _ => {} else c.get? x y :=
  get?_drawArea c r _

theorem drawnIn_clear (hin : c.Holds r) :
    DrawnIn (fun x y => r.contains x y = true) c (c.clear r) :=
  drawnIn_drawArea _ hin

/-! ## Texts -/

/-- The cells of a row from a column on, so many of them. -/
def InRow (y x width : Nat) (x' y' : Nat) : Prop := y' = y ∧ x ≤ x' ∧ x' < x + width

theorem drawnIn_drawSymbol (symbol : String) (s : Style) (hwidth : 0 < width)
    (hx : x + width ≤ c.width) (hy : y < c.height) :
    DrawnIn (InRow y x width) c (c.drawSymbol x y symbol width s) := by
  let put (cell : Cell) : Cell := { cell with symbol }.restyle s
  have hfirst : DrawnIn (InRow y x width) c (c.draw x y put) :=
    drawnIn_draw put (by omega) hy ⟨rfl, Nat.le_refl x, by omega⟩
  refine hfirst.trans ((drawnIn_clear fun x' y' h => ?_).mono fun x' y' h => ?_)
  · simp only [Rect.contains_iff] at h
    rw [hfirst.width, hfirst.height]
    omega
  · simp only [Rect.contains_iff] at h
    unfold InRow
    omega

theorem drawnIn_drawSymbols (s : Style) (symbols : List (String × Nat))
    (hsymbols : ∀ symbol ∈ symbols, 0 < symbol.2) (hx : x + left ≤ c.width) (hy : y < c.height) :
    DrawnIn (InRow y x left) c (drawSymbols y s symbols x left c).1 := by
  induction symbols generalizing x left c with
  | nil => exact drawnIn_refl _ c
  | cons symbol rest ih =>
      obtain ⟨symbol, width⟩ := symbol
      rw [drawSymbols]
      split
      · exact drawnIn_refl _ c
      · next hfits =>
          have hpos : 0 < width := hsymbols _ List.mem_cons_self
          have hfirst := drawnIn_drawSymbol (c := c) (x := x) symbol s hpos (by omega) hy
          have hrest : DrawnIn (InRow y (x + width) (left - width)) _
              (drawSymbols y s rest (x + width) (left - width) (c.drawSymbol x y symbol width s)).1 :=
            ih (fun other hother => hsymbols other (List.mem_cons_of_mem _ hother))
              (by rw [hfirst.width]; omega) (by rwa [hfirst.height])
          refine (hfirst.mono fun x' y' h => ?_).trans (hrest.mono fun x' y' h => ?_)
          · exact ⟨h.1, h.2.1, by have := h.2.2; omega⟩
          · exact ⟨h.1, by have := h.2.1; omega, by have := h.2.2; omega⟩

theorem drawnSymbols_pos (text : String) : ∀ symbol ∈ drawnSymbols text, 0 < symbol.2 := by
  intro symbol hsymbol
  rw [drawnSymbols, List.mem_filterMap] at hsymbol
  obtain ⟨cs, -, hcs⟩ := hsymbol
  dsimp only at hcs
  split at hcs
  · cases hcs
  · next hwidth =>
      cases hcs
      exact Nat.pos_of_ne_zero hwidth

theorem drawnIn_drawText (text : String) (limit : Nat) (s : Style) (hx : x ≤ c.width)
    (hy : y < c.height) : DrawnIn (InRow y x limit) c (c.drawText x y text limit s).1 :=
  (drawnIn_drawSymbols s _ (drawnSymbols_pos text) (by omega) hy).mono
    fun x' y' h => ⟨h.1, h.2.1, by have := h.2.2; omega⟩

theorem drawnIn_putText (text : String) (s : Style) (hx : x ≤ c.width) (hy : y < c.height) :
    DrawnIn (fun _ y' => y' = y) c (c.putText x y text s) :=
  (drawnIn_drawText text c.width s hx hy).mono fun _ _ h => h.1

/-! ## Titles -/

theorem drawnIn_drawTitleSymbols {area : Rect} (s : Style) (first : Bool)
    (symbols : List (String × Nat)) (hwidth : 0 < area.width) (hheight : 0 < area.height)
    (hin : c.Holds area) (hx : area.x ≤ x) (hx' : x ≤ area.right)
    (hfirst : first = true → x < area.right) :
    DrawnIn (fun x' y' => area.contains x' y' = true) c
      (drawTitleSymbols area s first x symbols c) := by
  induction symbols generalizing x first c with
  | nil => exact drawnIn_refl _ c
  | cons symbol rest ih =>
      obtain ⟨symbol, width⟩ := symbol
      have hcell : ∀ x', area.x ≤ x' → x' < area.right → area.contains x' area.y = true :=
        fun x' hle hlt => Rect.contains_iff.mpr ⟨hle, hlt, Nat.le_refl _, by omega⟩
      have hput : ∀ (f : Cell → Cell) x', area.x ≤ x' → x' < area.right →
          DrawnIn (fun x' y' => area.contains x' y' = true) c (c.draw x' area.y f) :=
        fun f x' hle hlt =>
          have hon := hin x' area.y (hcell x' hle hlt)
          drawnIn_draw f hon.1 hon.2 (hcell x' hle hlt)
      rw [drawTitleSymbols]
      split
      · exact drawnIn_refl _ c
      · next hfits =>
          have hrest : ∀ d, DrawnIn (fun x' y' => area.contains x' y' = true) c d →
              DrawnIn (fun x' y' => area.contains x' y' = true) c
                (drawTitleSymbols area s false (x + width) rest
                  (d.clear { x := x + 1, y := area.y, width := width - 1, height := 1 })) := by
            intro d hd
            have hbehind : ∀ x' y', ({ x := x + 1, y := area.y, width := width - 1, height := 1 } :
                Rect).contains x' y' = true → area.contains x' y' = true := by
              intro x' y' h
              simp only [Rect.contains_iff, Rect.right] at h hfits ⊢
              omega
            have hclear := (drawnIn_clear (c := d) fun x' y' h =>
              hin.of_drawnIn hd x' y' (hbehind x' y' h)).mono hbehind
            exact hd.trans (hclear.trans (ih false (hin.of_drawnIn (hd.trans hclear)) (by omega)
              (by omega) nofun))
          apply hrest
          split
          · next h => exact hput _ x hx (hfirst h)
          · split
            · exact hput _ x hx (by simp only [Rect.right]; omega)
            · split
              · exact hput _ (x - 1) (by omega) (by omega)
              · exact hput _ x hx (by omega)

/-- A title is drawn in its place. -/
theorem drawnIn_putTitle (c : Canvas) (area : Rect) (title : Line) :
    DrawnIn (fun x y => area.contains x y = true) c (c.putTitle area title) := by
  have hspans : ∀ (title : Line) (area : Rect) (c : Canvas), c.Holds area →
      DrawnIn (fun x y => area.contains x y = true) c (drawTitleSpans title area c) := by
    intro title
    induction title with
    | nil => exact fun area c _ => drawnIn_refl _ c
    | cons span rest ih =>
        intro area c hin
        rw [drawTitleSpans]
        split
        · exact drawnIn_refl _ c
        · next hempty =>
            obtain ⟨hwidth, hheight⟩ := Rect.isEmpty_eq_false_iff.mp ((Bool.not_eq_true _).mp hempty)
            split
            · exact ih area c hin
            · have hfirst := drawnIn_drawTitleSymbols (c := c) (x := area.x) span.style true
                ((Text.clusters span.text.toList).map fun cs =>
                  (String.ofList cs, Text.listWidth cs)) hwidth hheight hin (Nat.le_refl _)
                (Nat.le_add_right _ _) fun _ => by simp only [Rect.right]; omega
              have hcut : ∀ x y, (area.cutLeft span.width).2.contains x y = true →
                  area.contains x y = true := by
                intro x y h
                simp only [Rect.contains_iff, Rect.cutLeft] at h ⊢
                omega
              refine hfirst.trans ((ih _ _ fun x y h => ?_).mono hcut)
              exact hin.of_drawnIn hfirst x y (hcut x y h)
  exact (hspans title _ c fun x y h => contains_area.mp (contains_intersect.mp h).2).mono
    fun x y h => (contains_intersect.mp h).1

/-! ## Rectangles on a screen -/

/-- Whether a rectangle ends on a screen. -/
structure Fits (c : Canvas) (r : Rect) : Prop where
  right_le : r.right ≤ c.width
  bottom_le : r.bottom ≤ c.height

theorem Fits.holds (h : c.Fits r) : c.Holds r := by
  intro x y hcell
  have hright := h.right_le
  have hbottom := h.bottom_le
  simp only [Rect.contains_iff, Rect.right, Rect.bottom] at hcell hright hbottom
  omega

theorem Fits.of_drawnIn (h : c.Fits r) (hdrawn : DrawnIn P c c') : c'.Fits r :=
  ⟨hdrawn.width ▸ h.right_le, hdrawn.height ▸ h.bottom_le⟩

theorem Fits.intersect_area (h : c.Fits r) : r.intersect c.area = r := by
  have hright := h.right_le
  have hbottom := h.bottom_le
  cases r
  simp only [Rect.intersect, Rect.right, Rect.bottom, area, Rect.mk.injEq] at hright hbottom ⊢
  omega

end Canvas

/-! ## Frames -/

namespace Frame

open Canvas

variable {f : Frame} {c : Canvas} {r : Rect} {x y : Nat}

/-- The cells of the border of a rectangle. -/
def OnBorder (r : Rect) (x y : Nat) : Prop :=
  r.contains x y = true ∧ (x = r.x ∨ x + 1 = r.right ∨ y = r.y ∨ y + 1 = r.bottom)

theorem drawnIn_drawBorder (f : Frame) (hin : c.Holds r) :
    DrawnIn (OnBorder r) c (f.drawBorder r c) := by
  refine drawnIn_foldl fun y hy d hwidth hheight => ?_
  refine drawnIn_foldl fun x hx d' hwidth' hheight' => ?_
  rw [mem_columns] at hx
  rw [mem_rows] at hy
  have hcell : r.contains x y = true := Rect.contains_iff.mpr ⟨hx.1, hx.2, hy⟩
  have hon := hin x y hcell
  split
  · next hborder => exact drawnIn_draw _ (by omega) (by omega) ⟨hcell, hborder⟩
  · exact drawnIn_refl _ d'

theorem drawnIn_drawTitle (f : Frame) (hheight : 0 < r.height) :
    DrawnIn (OnBorder r) c (f.drawTitle r c) := by
  rw [drawTitle]
  dsimp only
  split
  · exact drawnIn_refl _ c
  · next hempty =>
      have hwide := (Rect.isEmpty_eq_false_iff.mp ((Bool.not_eq_true _).mp hempty)).1
      have htop : ∀ (width : Nat) x y, ({ titleArea r with width := min width (titleArea r).width } :
          Rect).contains x y = true → OnBorder r x y := by
        intro width x y h
        simp only [Rect.contains_iff, titleArea, OnBorder] at h hwide ⊢
        omega
      exact ((drawnIn_restyle c _ _).mono (htop _)).trans
        ((drawnIn_putTitle _ _ _).mono (htop _))

/-- Inside of its border a frame changes the look of the cells alone. -/
theorem get?_draw_inside (f : Frame) (hfits : c.Fits r) (hx : r.x < x) (hx' : x + 1 < r.right)
    (hy : r.y < y) (hy' : y + 1 < r.bottom) :
    (f.draw r c).get? x y = (c.get? x y).map fun cell => cell.restyle f.background := by
  have hcell : r.contains x y = true := by
    simp only [Rect.right, Rect.bottom] at hx' hy'
    exact Rect.contains_iff.mpr (by omega)
  have hheight : 0 < r.height := by
    simp only [Rect.bottom] at hy'
    omega
  have hinside : ¬ OnBorder r x y := by
    rintro ⟨-, h⟩
    omega
  have hempty : r.isEmpty = false := by
    rw [Rect.isEmpty_eq_false_iff]
    simp only [Rect.right] at hx'
    omega
  have hstyle := drawnIn_restyle c r f.background
  have hborder := drawnIn_drawBorder f (hfits.of_drawnIn hstyle).holds
  rw [draw, hfits.intersect_area]
  rw [if_neg (by rw [hempty]; decide), (drawnIn_drawTitle f hheight).kept x y hinside,
    hborder.kept x y hinside, get?_restyle, if_pos hcell]

theorem drawnIn_frame (f : Frame) (hfits : c.Fits r) :
    DrawnIn (fun x y => r.contains x y = true) c (f.draw r c) := by
  rw [draw, hfits.intersect_area]
  split
  · exact drawnIn_refl _ c
  · next hempty =>
      have hheight := (Rect.isEmpty_eq_false_iff.mp ((Bool.not_eq_true _).mp hempty)).2
      have hstyle := drawnIn_restyle c r f.background
      have hborder := drawnIn_drawBorder f (hfits.of_drawnIn hstyle).holds
      exact hstyle.trans ((hborder.trans (drawnIn_drawTitle f hheight)).mono fun x y h => h.1)

end Frame

end InstallerBrowser
