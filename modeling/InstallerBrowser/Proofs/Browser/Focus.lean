import InstallerBrowser.Proofs.Browser.Cursor
import InstallerBrowser.Proofs.Browser.QueuePlace
import InstallerBrowser.Proofs.Tree.Derivation

/-!
# InstallerBrowser.Proofs.Browser.Focus

Actions at a cursor while the focus is on the queue.

Six of the seven actions that go by a cursor look at the focus first, and leave the tree and its
cursor alone while it is on the queue.  Checking does not look: while an installer is ready it
toggles the node at the cursor of the tree (`Toggles`), on a narrow screen one that is not drawn.
-/

namespace InstallerBrowser.Browser

variable {b c : Browser} {action : Action} {row : TreeRow}

/-- The actions that are about what is at a cursor. -/
def cursorActions : List Action := moves ++ [.collapse, .expand, .toggleCheck]

/-- The tree, its marks and its open nodes, and the cursor in it stay. -/
def LeavesTree (b c : Browser) : Prop :=
  c.session.tree = b.session.tree ∧ c.treeCursor = b.treeCursor

/-- The node at the cursor of the tree gets another check state, and the cursor goes on to the next
row, if there is one. -/
def Toggles (b c : Browser) : Prop :=
  ∃ tree row, b.session.tree = some tree ∧ b.cursorRow = some row ∧
    c.session.tree = some (tree.toggle row.key).1 ∧
    (tree.toggle row.key).1.state? row.key ≠ tree.state? row.key ∧
    c.treeCursor = min (b.treeCursor + 1) (b.rows.length - 1)

theorem Toggles.not_leavesTree (h : Toggles b c) : ¬ LeavesTree b c := by
  intro ⟨hsame, _⟩
  obtain ⟨tree, row, htree, _, htoggled, hstate, _⟩ := h
  rw [htree, htoggled, Option.some.injEq] at hsame
  exact hstate (by rw [hsame])

/-! ## Moves, and opening and closing -/

theorem leavesTree_showSelected (b : Browser) : LeavesTree b b.showSelected := by
  unfold showSelected
  split <;> exact ⟨rfl, rfl⟩

theorem leavesTree_moveInQueue (b : Browser) (f : FileQueue → FileQueue) :
    LeavesTree b (b.moveInQueue f) := leavesTree_showSelected { b with queue := f b.queue }

/-- The actions that look at the focus. -/
theorem leavesTree_execute (hfocus : b.layout.focus = .queue) (haction : action ∈ cursorActions)
    (hne : action ≠ .toggleCheck) : LeavesTree b (b.execute action) := by
  cases action with
  | moveUp | moveDown | goToTop | goToBottom =>
      simp only [execute, moveUp, moveDown, goToTop, goToBottom, hfocus]
      exact leavesTree_moveInQueue b _
  | collapse | expand =>
      simp only [execute, collapse, expand, hfocus]
      exact ⟨rfl, rfl⟩
  | toggleCheck => exact absurd rfl hne
  | _ => exact absurd haction (by decide)

/-! ## Checking -/

theorem leavesTree_toggleCheck (h : b.session.state ≠ .ready ∨ b.rows = []) :
    LeavesTree b b.toggleCheck := by
  unfold toggleCheck
  split
  · exact ⟨rfl, rfl⟩
  · next row hrow =>
      have hunready : b.session.state ≠ .ready := by
        refine h.resolve_right fun hnone => ?_
        rw [cursorRow, hnone] at hrow
        cases hrow
      have hlocked : b.session.editableTree = none := by
        rw [Session.editableTree, if_neg hunready]
      rw [hlocked]
      exact ⟨rfl, rfl⟩

theorem toggles_toggleCheck (hgrown : b.session.GrownTree) (hin : InRows b)
    (hready : b.session.state = .ready) (hrows : b.rows ≠ []) : Toggles b b.toggleCheck := by
  obtain ⟨tree, htree⟩ : ∃ tree, b.session.tree = some tree := by
    cases htree : b.session.tree with
    | none => exact absurd (by rw [rows, htree]) hrows
    | some tree => exact ⟨tree, rfl⟩
  have hc := (hgrown tree htree).consistent
  have hlt := hin hrows
  obtain ⟨row, hrow⟩ : ∃ row, b.cursorRow = some row := ⟨_, List.getElem?_eq_getElem hlt⟩
  refine ⟨tree, row, htree, hrow, (at_toggleCheck htree hc.wellFormed hrow hready).tree_eq, ?_, ?_⟩
  · have hmem : row ∈ tree.visibleRows :=
      List.mem_of_getElem? ((cursorRow_of_tree htree).symm.trans hrow)
    have hstate := SelectionTree.state?_of_mem_visibleRows hc.wellFormed hmem
    rw [SelectionTree.state?_toggle hc hstate, hstate, Ne, Option.some.injEq]
    exact CheckState.ofMark_toggled_ne _
  · have heditable : b.session.editableTree = some tree := by
      rw [Session.editableTree, if_pos hready, htree]
    have hlen := congrArg List.length (SelectionTree.map_key_visibleRows_step hc.wellFormed
      (.toggle row.key) rfl)
    rw [List.length_map, List.length_map] at hlen
    simp only [toggleCheck, hrow, mapMarks, heditable, Option.isSome_some, if_true]
    show min _ ((tree.toggle row.key).1.visibleRows.length - 1) = _
    rw [rows_of_tree htree, ← hlen]
    rfl

/-! ## Runs -/

/-- **What the cursor actions do behind the focus**: after any events, while the focus is on the
queue, an action at a cursor leaves the tree and its cursor alone, but for checking while an
installer with rows is ready; that toggles the node at the cursor of the tree. -/
theorem leavesTree_run (config : Config) (env : Config.Environment) (dir : String)
    (files : FileStore) (events : List Event) :
    let b := (new config env dir files).run events
    b.layout.focus = .queue → ∀ event, ∀ action ∈ cursorActions, b.action? event = some action →
      (LeavesTree b (b.step event) ↔
        ¬ (action = .toggleCheck ∧ b.session.state = .ready ∧ b.rows ≠ [])) ∧
      (action = .toggleCheck → b.session.state = .ready → b.rows ≠ [] →
        Toggles b (b.step event)) := by
  intro b hfocus event action haction hevent
  have hgrown := grownTree_run config env dir files events
  have hnew : InRows (new config env dir files) := inRows_of_top rfl
  have htoggles : action = .toggleCheck → b.session.state = .ready → b.rows ≠ [] →
      Toggles b (b.execute action) := by
    intro hcheck hready hrows
    rw [hcheck]
    exact toggles_toggleCheck hgrown (hnew.run nofun events) hready hrows
  rw [step_of_action hevent]
  refine ⟨⟨fun hleaves ⟨hcheck, hready, hrows⟩ => ?_, fun h => ?_⟩, htoggles⟩
  · exact (htoggles hcheck hready hrows).not_leavesTree hleaves
  · by_cases hcheck : action = .toggleCheck
    · rw [hcheck]
      refine leavesTree_toggleCheck ?_
      by_contra hboth
      rw [not_or, not_not] at hboth
      exact h ⟨hcheck, hboth.1, hboth.2⟩
    · exact leavesTree_execute hfocus haction hcheck

/-- An installer with two files in a directory is loaded, and the focus goes back to the queue. -/
def unfocusedEvents : List Event := directoryEvents ++ [.action .focusNext]

/-- There `l` leaves the tree alone, and a blank toggles the directory at its top. -/
theorem leavesTree_run_unfocused :
    let b := (new {} atHome "out" setupFiles).run unfocusedEvents
    b.layout.focus = .queue ∧ LeavesTree b (b.step (.key { code := .char 'l' })) ∧
      b.session.state = .ready ∧ b.rows ≠ [] ∧ Toggles b (b.step (.key { code := .char ' ' })) := by
  have hstart : let b := (new {} atHome "out" setupFiles).run unfocusedEvents
      b.layout.focus = .queue ∧ b.session.state = .ready ∧ b.rows ≠ [] ∧
        b.action? (.key { code := .char 'l' }) = some .expand ∧
        b.action? (.key { code := .char ' ' }) = some .toggleCheck := by decide +kernel
  obtain ⟨hfocus, hready, hrows, hexpand, hcheck⟩ := hstart
  have hrun := leavesTree_run {} atHome "out" setupFiles unfocusedEvents hfocus
  have hleft := (hrun _ .expand (by decide) hexpand).1
  have htoggled := (hrun _ .toggleCheck (by decide) hcheck).2
  exact ⟨hfocus, hleft.mpr nofun, hready, hrows, htoggled rfl hready hrows⟩

/-- On a narrow screen the tree is not drawn while the focus is on the queue, and a blank changes
the state of a node in it. -/
theorem not_leavesTree_narrow :
    let b := (new {} atHome "out" setupFiles).run
      (.resize { width := 80, height := 24 } :: unfocusedEvents)
    b.layout.focus = .queue ∧ b.layout.mode = .compact ∧ b.layout.areas.tree.isEmpty = true ∧
      b.action? (.key { code := .char ' ' }) = some .toggleCheck ∧
      b.session.tree.map (·.state? 1) = some (some .checked) ∧
      (b.step (.key { code := .char ' ' })).session.tree.map (·.state? 1) =
        some (some .unchecked) ∧
      ¬ LeavesTree b (b.step (.key { code := .char ' ' })) := by
  intro b
  have hshown : b.layout.focus = .queue ∧ b.layout.mode = .compact ∧
      b.layout.areas.tree.isEmpty = true ∧
      b.action? (.key { code := .char ' ' }) = some .toggleCheck ∧
      b.session.tree.map (·.state? 1) = some (some .checked) ∧
      (b.step (.key { code := .char ' ' })).session.tree.map (·.state? 1) =
        some (some .unchecked) := by decide +kernel
  obtain ⟨hfocus, hmode, harea, hcheck, hbefore, hafter⟩ := hshown
  refine ⟨hfocus, hmode, harea, hcheck, hbefore, hafter, fun hleaves => ?_⟩
  rw [hleaves.1, hbefore] at hafter
  cases hafter

end InstallerBrowser.Browser
