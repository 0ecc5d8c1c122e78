import InstallerBrowser.Browser.View
import InstallerBrowser.Proofs.Browser.Cursor
import InstallerBrowser.Proofs.Browser.QueuePlace
import InstallerBrowser.Proofs.Panel.Window

/-!
# InstallerBrowser.Proofs.Browser.Scrolling

What is in view.

The panel of the tree is scrolled anew whenever it is drawn, so that the row with the cursor is
always drawn, on every screen and wherever the panel was scrolled to before (`treeShown_run`).

The panel of the queue is not: a move in the queue scrolls it to the selected file, and nothing else
does.  What any other event leaves on screen is what the rows show from the old place, so the
selected file is in view exactly as long as no event leaves it outside of these (`Hides`,
`selectedShown_run`).  To hide a file that is in view takes other files, fewer rows, or a panel that
was away (`Hides.cause`).
-/

namespace InstallerBrowser

namespace Layout

variable {width height : Nat} {focus : Focus} {screen : Rect}

end Layout

namespace Browser

variable {b c : Browser} {event : Event}

/-! ## The cursor of the tree -/

/-- How many rows the panel of the queue has for files. -/
def queueRows (b : Browser) : Nat :=
  if b.layout.areas.queue.isEmpty then 0 else b.layout.areas.queue.inside.height

/-- The files of the queue that are drawn, with their numbers. -/
def drawnFiles (b : Browser) : List (Nat × QueuedFile) := b.queuePanel.shown b.queueRows

/-- If the panel of the queue is drawn with rows for files, and a file is selected, it is one of
those that are drawn. -/
def SelectedShown (b : Browser) : Prop :=
  0 < b.queueRows → ∀ i f, b.queue.selected = some i → b.queue.files[i]? = some f →
    (i, f) ∈ b.drawnFiles

theorem drawnFiles_eq (b : Browser) :
    b.drawnFiles = Panel.window b.queue.files b.queueScroll b.queueRows := rfl

/-- A move in the queue brings the selected file into view, wherever the panel was scrolled to. -/
theorem selectedShown_moveInQueue (b : Browser) (f : FileQueue → FileQueue) :
    SelectedShown (b.moveInQueue f) := by
  intro hrows i file hselected hfile
  have hmoved : b.moveInQueue f = { b with
      queue := f b.queue
      queueScroll := Measure.keepInView i b.queueScroll (b.layout.areas.queue.height - 2) } := by
    rw [queue_moveInQueue] at hselected
    simp only [moveInQueue, showSelected, hselected]
  rw [hmoved] at hrows hfile ⊢
  rw [drawnFiles_eq]
  have hheight : queueRows b = b.layout.areas.queue.height - 2 := by
    unfold queueRows at hrows ⊢
    split at hrows
    · exact absurd hrows (Nat.lt_irrefl 0)
    · next harea => rw [if_neg harea]; rfl
  have hsame : 0 < b.layout.areas.queue.height - 2 := hheight ▸ hrows
  show (i, file) ∈ Panel.window (f b.queue).files _ (queueRows b)
  rw [hheight]
  exact Panel.mem_window_keepInView hfile b.queueScroll hsame

theorem selectedShown_of_moves (h : MovesInQueue b event) : SelectedShown (b.step event) := by
  obtain ⟨op, hop⟩ := exists_step_eq_moveInQueue h
  rw [hop]
  exact selectedShown_moveInQueue b _

/-- What is drawn after any other event is drawn from where the panel was scrolled to before. -/
theorem Listed.drawnFiles_eq (h : Listed b c) (hrows : 0 < c.queueRows) :
    c.drawnFiles = Panel.window c.queue.files b.queueScroll c.queueRows := by
  rw [Browser.drawnFiles_eq]
  cases h with
  | kept hplace => rw [(Prod.mk.inj hplace).2]
  | relisted _ hscroll => rw [hscroll]; exact Panel.window_min c.queue.files b.queueScroll hrows

/-- An event hides the selected file: it is no move in the queue, and from where the panel was
scrolled to before it, the rows of the panel do not get to the file that is selected after it. -/
structure Hides (b : Browser) (event : Event) : Prop where
  still : ¬ MovesInQueue b event
  rows : 0 < (b.step event).queueRows
  missed : ∃ i f, (b.step event).queue.selected = some i ∧ (b.step event).queue.files[i]? = some f ∧
    (i, f) ∉ Panel.window (b.step event).queue.files b.queueScroll (b.step event).queueRows

/-- After an event the selected file is in view unless the event hides it, whether it was in view
before or not. -/
theorem selectedShown_step_iff (b : Browser) (event : Event) :
    SelectedShown (b.step event) ↔ ¬ Hides b event := by
  constructor
  · rintro hshown ⟨hstill, hrows, i, f, hselected, hfile, hmissed⟩
    refine hmissed ?_
    rw [← (listed_step hstill).drawnFiles_eq hrows]
    exact hshown hrows i f hselected hfile
  · intro hnot
    by_cases hmove : MovesInQueue b event
    · exact selectedShown_of_moves hmove
    · intro hrows i f hselected hfile
      rw [(listed_step hmove).drawnFiles_eq hrows]
      by_contra hmissed
      exact hnot ⟨hmove, hrows, i, f, hselected, hfile, hmissed⟩

/-- A file that is in view can be hidden only by adding or removing files, by taking rows away, or
by a screen or a focus that brings the panel back. -/
theorem Hides.cause (h : Hides b event) (hshown : SelectedShown b) :
    (b.step event).queue.size ≠ b.queue.size ∨ (b.step event).queueRows < b.queueRows ∨
      b.queueRows = 0 := by
  obtain ⟨hstill, hrows, i, f, hselected, hfile, hmissed⟩ := h
  cases listed_step hstill with
  | relisted hsize _ => exact .inl hsize
  | kept hplace =>
      refine .inr ?_
      by_contra hmore
      rw [not_or, Nat.not_lt, ← Ne, ← Nat.pos_iff_ne_zero] at hmore
      rw [(Prod.mk.inj hplace).1] at hselected hfile hmissed
      have hin := hshown hmore.2 i f hselected hfile
      rw [drawnFiles_eq] at hin
      exact hmissed (Panel.window_subset _ _ hmore.1 hin)

/-- **When the selected file is in view**: at every moment of a run exactly if no event of the run
hides it.  A move in the queue always brings it into view; a file that is in view is hidden only by
adding or removing files, by fewer rows, or by a panel that comes back. -/
theorem selectedShown_run (config : Config) (env : Config.Environment) (dir : String)
    (files : FileStore) (events : List Event) :
    let start := new config env dir files
    let b := start.run events
    ((∀ before, before <+: events → SelectedShown (start.run before)) ↔
        ∀ before event, before ++ [event] <+: events → ¬ Hides (start.run before) event) ∧
      ∀ event, (MovesInQueue b event → SelectedShown (b.step event)) ∧
        (Hides b event → SelectedShown b → (b.step event).queue.size ≠ b.queue.size ∨
          (b.step event).queueRows < b.queueRows ∨ b.queueRows = 0) := by
  intro start b
  have hconcat : ∀ before event, start.run (before ++ [event]) = (start.run before).step event :=
    fun before event => run_append start before [event]
  refine ⟨⟨fun h before event hprefix => ?_, fun h before hprefix => ?_⟩,
    fun event => ⟨selectedShown_of_moves, Hides.cause⟩⟩
  · rw [← selectedShown_step_iff, ← hconcat]
    exact h (before ++ [event]) hprefix
  · rcases List.eq_nil_or_concat before with rfl | ⟨earlier, event, rfl⟩
    · exact fun hrows => absurd hrows (Nat.lt_irrefl 0)
    · rw [List.concat_eq_append] at hprefix ⊢
      rw [hconcat, selectedShown_step_iff]
      exact h earlier event hprefix

/-- A file system with an installer and another file in the working directory. -/
def mixedFiles : FileStore := setupFiles.put ["work", "a.txt"] (.file "")

/-- Behind seven other files an installer is added. -/
def mixedEvents : List Event :=
  [ .resize { width := 60, height := 16 }
  , .addFiles (List.replicate 7 "a.txt" ++ ["setup.exe"]) ]

/-- A move brings the selected file into view. -/
theorem selectedShown_run_moved :
    let b := ((new {} atHome "out" mixedFiles).run mixedEvents).step (.action .goToBottom)
    SelectedShown b ∧ b.drawnFiles.map Prod.fst = [2, 3, 4, 5, 6, 7] := by
  intro b
  obtain ⟨_, hall⟩ := selectedShown_run {} atHome "out" mixedFiles mixedEvents
  have hmoves : MovesInQueue ((new {} atHome "out" mixedFiles).run mixedEvents)
      (.action .goToBottom) := ⟨by decide +kernel, .goToBottom, by decide, rfl⟩
  exact ⟨(hall (.action .goToBottom)).1 hmoves, by decide +kernel⟩

/-- Adding files selects the installer among them, and leaves the panel where it was. -/
theorem not_selectedShown_added :
    let b := (new {} atHome "out" mixedFiles).run mixedEvents
    b.queue.selected = some 7 ∧ b.drawnFiles.map Prod.fst = [0, 1, 2, 3, 4, 5] ∧
      ¬ SelectedShown b := by
  intro b
  have hselected : b.queue.selected = some 7 := by decide +kernel
  have hdrawn : b.drawnFiles.map Prod.fst = [0, 1, 2, 3, 4, 5] := by decide +kernel
  have hfile : b.queue.files[7]? = some { path := "setup.exe", size := 0 } := by decide +kernel
  refine ⟨hselected, hdrawn, fun hshown => ?_⟩
  have hin := List.mem_map_of_mem (f := Prod.fst)
    (hshown (by decide +kernel) 7 _ hselected hfile)
  rw [hdrawn] at hin
  exact absurd hin (by decide)

end Browser

end InstallerBrowser
