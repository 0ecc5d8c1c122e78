import InstallerBrowser.Measure
import InstallerBrowser.Panel.Window

/-!
# InstallerBrowser.Proofs.Panel.Window

What a panel that scrolls shows.

A window is a block of the items, as long as there are rows for it (`window_block`), and which items
are in it is told by their numbers (`mem_window`).  Scrolling to what `keepInView` says puts an item
in the window (`mem_window_keepInView`); more rows leave every item in (`window_subset`), and a
scroll position behind the last item is as good as one at it (`window_min`).
-/

namespace InstallerBrowser.Panel

variable {α : Type} {items : List α} {scroll height more i : Nat} {x : α}

theorem window_eq (items : List α) (scroll height : Nat) : window items scroll height =
    ((items.zipIdx.map Prod.swap).drop (firstShown items.length scroll height)).take height := rfl

/-- An item is shown if its number is one of as many as there are rows, from the first one shown
on. -/
theorem mem_window : (i, x) ∈ window items scroll height ↔ items[i]? = some x ∧
    firstShown items.length scroll height ≤ i ∧
    i < firstShown items.length scroll height + height := by
  simp only [window_eq, List.mem_iff_getElem?, List.getElem?_take, List.getElem?_drop,
    List.getElem?_map, List.getElem?_zipIdx]
  constructor
  · rintro ⟨k, hk⟩
    split at hk
    · next hlt =>
        obtain ⟨⟨y, j⟩, hy, heq⟩ := Option.map_eq_some_iff.mp hk
        obtain ⟨z, hz, hpair⟩ := Option.map_eq_some_iff.mp hy
        cases hpair
        cases heq
        rw [Nat.zero_add]
        exact ⟨hz, Nat.le_add_right _ _, Nat.add_lt_add_left hlt _⟩
    · cases hk
  · rintro ⟨hx, hfirst, hlast⟩
    refine ⟨i - firstShown items.length scroll height, ?_⟩
    rw [if_pos (by omega), Nat.add_sub_cancel' hfirst, hx, Option.map_some, Option.map_some,
      Nat.zero_add, Prod.swap_prod_mk]

/-- What is shown in some rows is shown in more rows as well. -/
theorem window_subset (items : List α) (scroll : Nat) (h : height ≤ more) :
    window items scroll height ⊆ window items scroll more := by
  rintro ⟨i, x⟩ hmem
  rw [mem_window] at hmem ⊢
  obtain ⟨hx, hfirst, hlast⟩ := hmem
  have hlt := (List.getElem?_eq_some_iff.mp hx).choose
  rw [firstShown] at hfirst hlast ⊢
  exact ⟨hx, by omega, by omega⟩

/-- A scroll position behind the last item is as good as one at it. -/
theorem window_min (items : List α) (scroll : Nat) (h : 0 < height) :
    window items (min scroll (items.length - 1)) height = window items scroll height := by
  have hfirst : firstShown items.length (min scroll (items.length - 1)) height =
      firstShown items.length scroll height := by
    rw [firstShown, firstShown]
    omega
  rw [window_eq, window_eq, hfirst]

/-- An item that is kept in view is shown. -/
theorem mem_window_keepInView (hx : items[i]? = some x) (scroll : Nat) (h : 0 < height) :
    (i, x) ∈ window items (Measure.keepInView i scroll height) height := by
  have hlt := (List.getElem?_eq_some_iff.mp hx).choose
  have hle := Measure.keepInView_le_cursor i scroll height
  have hin : i < Measure.keepInView i scroll height + height :=
    Measure.cursor_lt_keepInView_add scroll h
  rw [mem_window, firstShown]
  exact ⟨hx, by omega, by omega⟩

end InstallerBrowser.Panel
