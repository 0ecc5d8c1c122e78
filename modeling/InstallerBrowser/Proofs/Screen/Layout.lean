import InstallerBrowser.Screen.Layout

/-!
# InstallerBrowser.Proofs.Screen.Layout

The panels tile the screen.

A rectangle that is cut is tiled by its two parts (`tiles_cutBottom`, `tiles_cutLeft`), and a part
of a tiling can be tiled in its turn (`Tiles.refine`); both kinds of screens are made by cutting.
The places in use are always those of the size that was given last and of the focus
(`fitsScreen_run`), so the screen stays tiled when the focus alone is changed.
-/

namespace InstallerBrowser

/-! ## Tilings -/

namespace Rect

variable {r a b whole : Rect} {parts rest : List Rect} {x y n : Nat}

theorem contains_iff :
    r.contains x y = true ↔ r.x ≤ x ∧ x < r.x + r.width ∧ r.y ≤ y ∧ y < r.y + r.height := by
  simp only [contains, Bool.and_eq_true, decide_eq_true_eq, and_assoc]
  rfl

theorem isEmpty_eq_false_iff : r.isEmpty = false ↔ 0 < r.width ∧ 0 < r.height := by
  simp [isEmpty, Nat.pos_iff_ne_zero]

/-- Whether two rectangles share no cell. -/
def Apart (a b : Rect) : Prop := ∀ x y, a.contains x y = true → ¬ b.contains x y = true

/-- Whether rectangles lie in another one, share no cell with each other, and leave no cell of it
out. -/
structure Tiles (parts : List Rect) (whole : Rect) : Prop where
  inside : ∀ part ∈ parts, ∀ x y, part.contains x y = true → whole.contains x y = true
  apart : parts.Pairwise Apart
  covers : ∀ x y, whole.contains x y = true → ∃ part ∈ parts, part.contains x y = true

theorem apart_symm (h : Apart a b) : Apart b a := fun x y hb ha => h x y ha hb

theorem tiles_pair (hcells : ∀ x y, whole.contains x y = true ↔
    a.contains x y = true ∨ b.contains x y = true) (hapart : Apart a b) : Tiles [a, b] whole where
  inside part hpart x y h := by
    simp only [List.mem_cons, List.not_mem_nil, or_false] at hpart
    rcases hpart with rfl | rfl
    · exact (hcells x y).mpr (.inl h)
    · exact (hcells x y).mpr (.inr h)
  apart := by simpa using hapart
  covers x y h := by simpa using (hcells x y).mp h

/-- The two parts of a rectangle that is cut above its lower side tile it. -/
theorem tiles_cutBottom (h : n ≤ r.height) : Tiles [(r.cutBottom n).1, (r.cutBottom n).2] r := by
  refine tiles_pair (fun x y => ?_) fun x y => ?_
  · simp only [contains_iff, cutBottom, bottom]
    omega
  · simp only [contains_iff, cutBottom, bottom]
    omega

/-- The two parts of a rectangle that is cut behind its left side tile it. -/
theorem tiles_cutLeft (r : Rect) (n : Nat) : Tiles [(r.cutLeft n).1, (r.cutLeft n).2] r := by
  refine tiles_pair (fun x y => ?_) fun x y => ?_
  · simp only [contains_iff, cutLeft]
    omega
  · simp only [contains_iff, cutLeft]
    omega

/-- The order of the parts does not matter. -/
theorem Tiles.perm (h : Tiles parts whole) (hperm : parts.Perm rest) : Tiles rest whole where
  inside part hpart := h.inside part (hperm.mem_iff.mpr hpart)
  apart := hperm.pairwise h.apart apart_symm
  covers x y hcell := by
    obtain ⟨part, hpart, hin⟩ := h.covers x y hcell
    exact ⟨part, hperm.mem_iff.mp hpart, hin⟩

/-- The first part of a tiling is replaced by parts that tile it. -/
theorem Tiles.refine_first (h : Tiles (a :: rest) whole) (hparts : Tiles parts a) :
    Tiles (parts ++ rest) whole where
  inside part hpart x y hcell := by
    rcases List.mem_append.mp hpart with hpart | hpart
    · exact h.inside a List.mem_cons_self x y (hparts.inside part hpart x y hcell)
    · exact h.inside part (List.mem_cons_of_mem a hpart) x y hcell
  apart := by
    obtain ⟨hfirst, hrest⟩ := List.pairwise_cons.mp h.apart
    refine List.pairwise_append.mpr ⟨hparts.apart, hrest, fun part hpart other hother x y hcell => ?_⟩
    exact hfirst other hother x y (hparts.inside part hpart x y hcell)
  covers x y hcell := by
    obtain ⟨part, hpart, hin⟩ := h.covers x y hcell
    rcases List.mem_cons.mp hpart with rfl | hpart
    · obtain ⟨piece, hpiece, hin⟩ := hparts.covers x y hin
      exact ⟨piece, List.mem_append_left rest hpiece, hin⟩
    · exact ⟨part, List.mem_append_right parts hpart, hin⟩

/-- A part of a tiling is replaced by parts that tile it. -/
theorem Tiles.refine (front : List Rect) (h : Tiles (front ++ a :: rest) whole)
    (hparts : Tiles parts a) : Tiles (front ++ (parts ++ rest)) whole :=
  ((h.perm List.perm_middle).refine_first hparts).perm (List.perm_append_comm_assoc ..)

end Rect

/-! ## Places -/

namespace Layout

open Rect

variable {screen : Rect} {focus : Focus} {l : Layout} {op : Operation} {ops : List Operation}

/-- The places of all panels. -/
def Areas.panels (a : Areas) : List Rect :=
  [a.queue, a.info, a.tree, a.log, a.statusBar, a.commandBar, a.warning]

/-- The places of the panels that are shown. -/
def Areas.shown (a : Areas) : List Rect := a.panels.filter fun panel => !panel.isEmpty

/-- The place of the panel with the focus. -/
def Areas.focused (a : Areas) : Focus → Rect
  | .queue => a.queue
  | .tree => a.tree

theorem tiles_splitBars (h : 2 ≤ screen.height) :
    Tiles [(splitBars screen).1, (splitBars screen).2.1, (splitBars screen).2.2] screen := by
  have hcommand : Tiles [(screen.cutBottom 1).1, (screen.cutBottom 1).2] screen :=
    tiles_cutBottom (by omega)
  exact hcommand.refine [] (tiles_cutBottom (by simp only [cutBottom]; omega))

theorem tiles_wideAreas (h : minHeight ≤ screen.height) :
    let a := wideAreas screen
    Tiles [a.queue, a.info, a.tree, a.log, a.statusBar, a.commandBar] screen := by
  have hbody : (splitBars screen).1.height = screen.height - 2 := rfl
  have hlarge : minHeight = 16 := rfl
  have hbars : Tiles _ screen := tiles_splitBars (by omega)
  have hcolumns := hbars.refine []
    (tiles_cutLeft (splitBars screen).1 (leftWidth (splitBars screen).1.width))
  have hleft := hcolumns.refine []
    (tiles_cutBottom (n := infoHeight) (by simp only [infoHeight, cutLeft]; omega))
  exact hleft.refine [_, _]
    (tiles_cutBottom (n := logHeight) (by simp only [logHeight, cutLeft]; omega))

theorem tiles_compactAreas (focus : Focus) (h : minHeight ≤ screen.height) :
    let a := compactAreas focus screen
    Tiles [a.focused focus, a.log, a.statusBar, a.commandBar] screen := by
  have hbody : (splitBars screen).1.height = screen.height - 2 := rfl
  have hlarge : minHeight = 16 := rfl
  have hbars : Tiles _ screen := tiles_splitBars (by omega)
  have hpanel := hbars.refine []
    (tiles_cutBottom (n := compactLogHeight) (by simp only [compactLogHeight]; omega))
  cases focus with
  | queue => exact hpanel
  | tree => exact hpanel

theorem shown_wideAreas (hwidth : wideWidth ≤ screen.width) (hheight : minHeight ≤ screen.height) :
    let a := wideAreas screen
    a.shown = [a.queue, a.info, a.tree, a.log, a.statusBar, a.commandBar] := by
  intro a
  have hwide : wideWidth = 100 := rfl
  have hlarge : minHeight = 16 := rfl
  have hfull : ∀ panel ∈ [a.queue, a.info, a.tree, a.log, a.statusBar, a.commandBar],
      (!panel.isEmpty) = true := by
    simp only [a, wideAreas, splitBars, cutBottom, cutLeft, leftWidth, infoHeight, logHeight,
      List.forall_mem_cons, Bool.not_eq_true', isEmpty_eq_false_iff, List.not_mem_nil,
      false_implies, implies_true, and_true]
    omega
  have hwarning : [a.warning].filter (fun panel => !panel.isEmpty) = [] := rfl
  have hpanels : a.panels =
      [a.queue, a.info, a.tree, a.log, a.statusBar, a.commandBar] ++ [a.warning] := rfl
  rw [Areas.shown, hpanels, List.filter_append, List.filter_eq_self.mpr hfull, hwarning,
    List.append_nil]

theorem shown_compactAreas (focus : Focus) (hwidth : minWidth ≤ screen.width)
    (hheight : minHeight ≤ screen.height) :
    let a := compactAreas focus screen
    a.shown = [a.focused focus, a.log, a.statusBar, a.commandBar] := by
  intro a
  have hlarge : minWidth = 60 ∧ minHeight = 16 := ⟨rfl, rfl⟩
  have hfull : ∀ panel ∈ [a.focused focus, a.log, a.statusBar, a.commandBar],
      panel.isEmpty = false := by
    cases focus <;>
      simp only [a, compactAreas, splitBars, cutBottom, compactLogHeight, Areas.focused,
        List.forall_mem_cons, isEmpty_eq_false_iff, List.not_mem_nil, false_implies, implies_true,
        and_true] <;>
      omega
  simp only [List.forall_mem_cons] at hfull
  obtain ⟨hpanel, hlog, hstatus, hcommand, -⟩ := hfull
  have hhidden : ({} : Rect).isEmpty = true := rfl
  cases focus with
  | queue =>
      have hpanels : a.panels = [a.queue, {}, {}, a.log, a.statusBar, a.commandBar, {}] := rfl
      have hqueue : a.queue.isEmpty = false := hpanel
      simp [Areas.shown, Areas.focused, hpanels, hlog, hstatus, hcommand, hqueue, hhidden]
  | tree =>
      have hpanels : a.panels = [{}, {}, a.tree, a.log, a.statusBar, a.commandBar, {}] := rfl
      have htree : a.tree.isEmpty = false := hpanel
      simp [Areas.shown, Areas.focused, hpanels, hlog, hstatus, hcommand, htree, hhidden]

/-! ## Screens -/

/-- The panels that a screen shows that is large enough. -/
def Areas.expected (a : Areas) (focus : Focus) (width : Nat) : List Rect :=
  if wideWidth ≤ width then [a.queue, a.info, a.tree, a.log, a.statusBar, a.commandBar]
  else [a.focused focus, a.log, a.statusBar, a.commandBar]

/-- **The panels that are shown tile the screen**, if it is large enough. -/
theorem tiles_areasOf (focus : Focus) (hwidth : minWidth ≤ screen.width)
    (hheight : minHeight ≤ screen.height) :
    (areasOf focus screen).shown = (areasOf focus screen).expected focus screen.width ∧
      Tiles (areasOf focus screen).shown screen := by
  have hlarge : ¬ (screen.width < minWidth ∨ screen.height < minHeight) := by omega
  rw [areasOf, modeOf, if_neg hlarge, Areas.expected]
  by_cases hwide : wideWidth ≤ screen.width
  · rw [if_neg (Nat.not_lt.mpr hwide), if_pos hwide]
    simp only [shown_wideAreas hwide hheight, true_and]
    exact tiles_wideAreas hheight
  · rw [if_pos (Nat.lt_of_not_le hwide), if_neg hwide]
    simp only [shown_compactAreas focus hwidth hheight, true_and]
    exact tiles_compactAreas focus hheight

theorem areasOf_of_small (focus : Focus)
    (h : screen.width < minWidth ∨ screen.height < minHeight) :
    areasOf focus screen = { warning := screen } := by
  rw [areasOf, modeOf, if_pos h]

/-! ## Runs -/

/-- The screen after an operation. -/
def Operation.screenAfter (screen : Rect) : Operation → Rect
  | .update screen => screen
  | .toggleFocus | .setFocus _ => screen

/-- The panel with the focus after an operation. -/
def Operation.focusAfter (focus : Focus) : Operation → Focus
  | .update _ => focus
  | .toggleFocus => focus.other
  | .setFocus focus => focus

/-- Whether an operation gives a screen with its corner at the origin, if it gives one. -/
def Operation.AtOrigin (op : Operation) : Prop :=
  ∀ screen, op = .update screen → screen.x = 0 ∧ screen.y = 0

/-- Whether a layout is that of a screen. -/
structure FitsScreen (l : Layout) (screen : Rect) : Prop where
  mode : l.mode = modeOf screen.width screen.height
  width : l.width = screen.width
  height : l.height = screen.height
  areas : l.areas = areasOf l.focus screen

theorem fitsScreen_update (l : Layout) (screen : Rect) : FitsScreen (l.update screen) screen :=
  ⟨rfl, rfl, rfl, rfl⟩

theorem focus_step (l : Layout) (op : Operation) : (l.step op).focus = op.focusAfter l.focus := by
  cases op with
  | update screen => rfl
  | toggleFocus => rfl
  | setFocus focus =>
      rw [step, setFocus, Operation.focusAfter]
      split
      · next h => exact h
      · next h =>
          show l.focus.other = focus
          cases hfocus : l.focus <;> cases focus <;> simp_all [Focus.other]

theorem focus_run (l : Layout) (ops : List Operation) :
    (l.run ops).focus = ops.foldl Operation.focusAfter l.focus := by
  induction ops generalizing l with
  | nil => rfl
  | cons op ops ih =>
      rw [List.foldl_cons, ← focus_step]
      exact ih (l.step op)

/-- The size that a layout keeps is enough to find its places again. -/
theorem FitsScreen.toggleFocus (h : FitsScreen l screen) (horigin : screen.x = 0 ∧ screen.y = 0) :
    FitsScreen l.toggleFocus screen := by
  have hscreen : ({ width := l.width, height := l.height } : Rect) = screen := by
    rw [h.width, h.height]
    cases screen
    simp_all
  rw [Layout.toggleFocus, hscreen]
  exact fitsScreen_update _ screen

theorem FitsScreen.step (h : FitsScreen l screen) (horigin : screen.x = 0 ∧ screen.y = 0) :
    FitsScreen (l.step op) (op.screenAfter screen) := by
  cases op with
  | update screen => exact fitsScreen_update l screen
  | toggleFocus => exact h.toggleFocus horigin
  | setFocus focus =>
      rw [Layout.step, setFocus]
      split
      · exact h
      · exact h.toggleFocus horigin

theorem FitsScreen.run (h : FitsScreen l screen) (horigin : screen.x = 0 ∧ screen.y = 0)
    (hops : ∀ op ∈ ops, op.AtOrigin) :
    FitsScreen (l.run ops) (ops.foldl Operation.screenAfter screen) := by
  induction ops generalizing l screen with
  | nil => exact h
  | cons op ops ih =>
      refine ih (h.step horigin) ?_ fun other hother => hops other (List.mem_cons_of_mem op hother)
      cases op with
      | update screen => exact hops _ List.mem_cons_self screen rfl
      | toggleFocus => exact horigin
      | setFocus focus => exact horigin

/-- **The layout tiles the screen**: after operations of which the first gives a screen, the places
are those of the screen that was given last and of the focus.  If that screen is large enough, the
panels that have a place are the expected ones, and they tile it; on a smaller one there is nothing
but the warning, which takes all of it. -/
theorem tiles_run (l : Layout) (first : Rect) (ops : List Operation)
    (horigin : ∀ op ∈ Operation.update first :: ops, op.AtOrigin) :
    let after := l.run (.update first :: ops)
    let screen := ops.foldl Operation.screenAfter first
    after.focus = ops.foldl Operation.focusAfter l.focus ∧
      after.mode = modeOf screen.width screen.height ∧
      after.areas = areasOf after.focus screen ∧
      (minWidth ≤ screen.width ∧ minHeight ≤ screen.height →
        after.areas.shown = after.areas.expected after.focus screen.width ∧
          Tiles after.areas.shown screen) ∧
      (screen.width < minWidth ∨ screen.height < minHeight →
        after.areas = { warning := screen }) := by
  intro after screen
  have hfits : FitsScreen after screen :=
    (fitsScreen_update l first).run (horigin _ List.mem_cons_self first rfl)
      fun op hop => horigin op (List.mem_cons_of_mem _ hop)
  refine ⟨focus_run l _, hfits.mode, hfits.areas, fun hlarge => ?_, fun hsmall => ?_⟩
  · rw [hfits.areas]
    exact tiles_areasOf after.focus hlarge.1 hlarge.2
  · rw [hfits.areas]
    exact areasOf_of_small after.focus hsmall

/-- A wide screen, and a compact one with the tree in focus, with nothing to show in between. -/
def resizes : List Operation :=
  [.update { width := 120, height := 30 }, .toggleFocus, .update { width := 59, height := 30 },
    .setFocus .queue, .update { width := 60, height := 16 }, .setFocus .tree]

theorem tiles_run_resizes :
    (∀ op ∈ resizes, op.AtOrigin) ∧
      ((({} : Layout).run resizes).areas.shown =
        [{ width := 60, height := 8 }, { y := 8, width := 60, height := 6 },
          { y := 14, width := 60, height := 1 }, { y := 15, width := 60, height := 1 }]) ∧
      Tiles (({} : Layout).run resizes).areas.shown { width := 60, height := 16 } := by
  have horigin : ∀ op ∈ resizes, op.AtOrigin := by
    simp [resizes, Operation.AtOrigin]
  obtain ⟨-, -, -, hlarge, -⟩ := tiles_run {} { width := 120, height := 30 } resizes.tail horigin
  exact ⟨horigin, by decide, (hlarge (by decide)).2⟩

end Layout

end InstallerBrowser
