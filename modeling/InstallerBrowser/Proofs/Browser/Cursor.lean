import InstallerBrowser.Proofs.Browser.Changes
import InstallerBrowser.Proofs.Tree.Rows

/-!
# InstallerBrowser.Proofs.Browser.Cursor

The cursor of the tree.

The cursor is the number of a row, and the rows are made anew from the tree whenever it changes.
It stays among them (`InRows`), and each kind of change has its reason for that (`Change.inRows`):
what opens or closes nodes or moves the cursor puts it back among the rows, marks change no row's
place, and a tree that is dropped has no rows.  With a tree that is brought the cursor goes to the
top.

The actions are about nodes all the same (`Navigates`), since the row of a node keeps its place
where the node itself is opened, closed or checked, and since the rows are a pre-order, in which the
first child of an open node is behind it.
-/

namespace InstallerBrowser

namespace SelectionTree

variable {t : SelectionTree}

/-- What changes marks opens and closes no node. -/
theorem expanded_step (t : SelectionTree) (op : Operation) (hop : Session.onlyOpens op = false) :
    (t.step op).expanded = t.expanded := by
  cases op with
  | check key =>
      simp only [step, check]
      split
      · rfl
      · exact (nodeWrite_checkNode t _).expanded_eq
  | uncheck key =>
      simp only [step, uncheck]
      split
      · rfl
      · exact (nodeWrite_uncheckNode t _).expanded_eq
  | toggle key =>
      rcases toggle_cases t key with ⟨_, heq⟩ | ⟨_, _, hwrite⟩
      · rw [step, heq]
      · exact hwrite.expanded_eq
  | checkAll | uncheckAll => rfl
  | expand _ | collapse _ | toggleExpanded _ => cases hop

/-- So it changes no row's place. -/
theorem map_key_visibleRows_step (hw : t.hierarchy.WellFormed) (op : Operation)
    (hop : Session.onlyOpens op = false) :
    (t.step op).visibleRows.map (·.key) = t.visibleRows.map (·.key) :=
  map_key_visibleRows_congr hw (hierarchy_step t op) (expanded_step t op hop)

end SelectionTree

namespace Browser

variable {b c : Browser} {n : Nat} {row : TreeRow} {key : NodeKey} {tree : SelectionTree}

/-! ## Among the rows -/

/-- If the tree has rows, the cursor is on one of them. -/
def InRows (b : Browser) : Prop := b.rows ≠ [] → b.treeCursor < b.rows.length

theorem rows_of_tree (h : b.session.tree = some tree) : b.rows = tree.visibleRows := by rw [rows, h]

theorem inRows_of_tree_eq_none (h : b.session.tree = none) : InRows b := fun hne =>
  absurd (by rw [rows, h]) hne

theorem inRows_of_top (h : b.treeCursor = 0) : InRows b := fun hne => by
  rw [h]
  exact List.length_pos_iff.mpr hne

namespace InRows

theorem congr (h : InRows b) (htree : c.session.tree = b.session.tree)
    (hcursor : c.treeCursor = b.treeCursor) : InRows c := by
  have hrows : c.rows = b.rows := by rw [rows, rows, htree]
  rw [InRows, hrows, hcursor]
  exact h

theorem spared (h : InRows b) (hspared : Session.Spared b.session.tree c.session.tree)
    (hcursor : c.treeCursor = b.treeCursor) : InRows c := by
  rcases hspared with hsame | hnone
  · exact h.congr hsame hcursor
  · exact inRows_of_tree_eq_none hnone

end InRows

theorem inRows_clampTree (b : Browser) : InRows b.clampTree := fun hne => by
  have hpos : 0 < b.rows.length := List.length_pos_iff.mpr hne
  have hle : b.clampTree.treeCursor ≤ b.rows.length - 1 := Nat.min_le_right _ _
  have hlen : b.clampTree.rows.length = b.rows.length := rfl
  omega

theorem inRows_moveTreeCursor (b : Browser) (n : Nat) : InRows (b.moveTreeCursor n) :=
  inRows_clampTree _

/-- Marks change no row's place. -/
theorem InRows.marked (h : InRows b) (hgrown : b.session.GrownTree) (op : SelectionTree.Operation)
    (hop : Session.onlyOpens op = false) :
    InRows { b with session := b.session.step (.changeTree op) } := by
  rcases b.session.changeTree_cases op with heq | ⟨tree, htree, heq⟩
  · rw [Session.step, heq]
    exact h
  · have hw := (hgrown tree htree).consistent.wellFormed
    have hlen := congrArg List.length (SelectionTree.map_key_visibleRows_step hw op hop)
    rw [List.length_map, List.length_map, ← rows_of_tree htree] at hlen
    rw [Session.step, heq]
    intro hne
    show b.treeCursor < (tree.step op).visibleRows.length
    rw [hlen]
    refine h ?_
    rw [← List.length_pos_iff, ← hlen]
    exact List.length_pos_iff.mpr hne

/-! ### Changes -/

theorem Change.grownTree (h : Change b c) (hb : b.session.GrownTree) : c.session.GrownTree := by
  cases h with
  | logged _ _ | counted | shown | queued _ | noted _ _ _ | toTop | moved _ => exact hb
  | passed step _ => exact hb.step step
  | opened op _ | marked op _ => exact hb.step (.changeTree op)

theorem Changes.grownTree (h : Changes b c) (hb : b.session.GrownTree) : c.session.GrownTree := by
  induction h with
  | refl => exact hb
  | tail _ hchange ih => exact hchange.grownTree ih

theorem Change.inRows (h : Change b c) (hgrown : b.session.GrownTree) (hb : InRows b) :
    InRows c := by
  cases h with
  | logged _ _ | counted | shown | queued _ | noted _ _ _ => exact hb.congr rfl rfl
  | passed _ hspared => exact hb.spared hspared rfl
  | toTop => exact inRows_of_top rfl
  | moved row => exact inRows_moveTreeCursor b row
  | opened _ _ => exact inRows_clampTree _
  | marked op hop => exact hb.marked hgrown op hop

theorem Changes.inRows (h : Changes b c) (hgrown : b.session.GrownTree) (hb : InRows b) :
    InRows c := by
  induction h with
  | refl => exact hb
  | tail hchanges hchange ih => exact hchange.inRows (Changes.grownTree hchanges hgrown) ih

/-! ### Events -/

/-- The news of a tree put the cursor at its top. -/
theorem inRows_onEvents_of_loaded {name : String} {entries : Nat} {events : List SessionEvent}
    (hmem : .loaded name entries ∈ events) (hgrown : b.session.GrownTree) :
    InRows (events.foldl onEvent b) := by
  induction events generalizing b with
  | nil => cases hmem
  | cons event rest ih =>
      have hgrown' := (changes_onEvent b event).grownTree hgrown
      cases hmem with
      | head => exact (changes_foldl changes_onEvent rest _).inRows hgrown' (inRows_of_top rfl)
      | tail _ hrest => exact ih hrest hgrown'

namespace InRows

theorem poll (h : InRows b) (hgrown : b.session.GrownTree) : InRows b.poll := by
  have hplanted := Session.planted_poll b.session
  show InRows (b.session.poll.2.foldl Browser.onEvent { b with session := b.session.poll.1 })
  generalize htree : b.session.poll.1.tree = after at hplanted
  cases hplanted with
  | listed _ hmem => exact inRows_onEvents_of_loaded hmem hgrown.poll
  | spared hspared =>
      have hread : InRows { b with session := b.session.poll.1 } := h.spared (htree ▸ hspared) rfl
      exact (changes_foldl changes_onEvent _ _).inRows hgrown.poll hread

theorem forceQuit (h : InRows b) : InRows b.forceQuit := h.congr b.session.tree_shutdown rfl

theorem toggleOption (h : InRows b) (hgrown : b.session.GrownTree) (f : OptionField) :
    InRows (b.toggleOption f) := by
  unfold Browser.toggleOption
  split
  · exact (changes_tellLocked b _).inRows hgrown h
  · have htoggled : InRows { b with options := b.options.toggle f } := h.congr rfl rfl
    simp only
    split
    · exact (changes_followDrift _).inRows hgrown (htoggled.congr rfl rfl)
    · exact (changes_followDrift _).inRows hgrown htoggled

theorem resetOptions (h : InRows b) (hgrown : b.session.GrownTree) : InRows b.resetOptions := by
  unfold Browser.resetOptions
  split
  · exact (changes_tellLocked b _).inRows hgrown h
  · split
    · exact h
    · exact (changes_followDrift _).inRows hgrown (h.congr rfl rfl)

/-- No event takes the cursor out of the rows. -/
theorem step (h : InRows b) (hgrown : b.session.GrownTree) (event : Event) :
    InRows (b.step event) := by
  have houtcome := outcome b event
  generalize b.step event = c at houtcome
  cases houtcome with
  | changes hchanges => exact hchanges.inRows hgrown h
  | polls hchanges =>
      have hgrown' : b.poll.session.GrownTree :=
        (changes_foldl changes_onEvent _ _).grownTree hgrown.poll
      exact hchanges.inRows hgrown' (h.poll hgrown)
  | quits _ _ => exact h.forceQuit
  | confirmed _ => exact ((changes_closeDialog b).inRows hgrown h).forceQuit
  | toggled f => exact h.toggleOption hgrown f
  | reset => exact h.resetOptions hgrown

end InRows

theorem kept_grownTree : Kept Session.GrownTree :=
  ⟨fun _ step h => h.step step, fun _ _ _ h => h⟩

theorem grownTree_run (config : Config) (env : Config.Environment) (dir : String)
    (files : FileStore) (events : List Event) :
    ((new config env dir files).run events).session.GrownTree :=
  session_run kept_grownTree events nofun

theorem InRows.run (h : InRows b) (hgrown : b.session.GrownTree) (events : List Event) :
    InRows (b.run events) := by
  induction events generalizing b with
  | nil => exact h
  | cons event rest ih => exact ih (h.step hgrown event) (session_step kept_grownTree event hgrown)

/-! ## On a node -/

/-- The cursor is on the node of a tree with a key. -/
structure At (b : Browser) (tree : SelectionTree) (key : NodeKey) : Prop where
  tree_eq : b.session.tree = some tree
  row : ∃ row, b.cursorRow = some row ∧ row.key = key

theorem cursorRow_of_tree (h : b.session.tree = some tree) :
    b.cursorRow = tree.visibleRows[b.treeCursor]? := by
  rw [cursorRow, rows_of_tree h]

/-- A cursor that is on a row is left there. -/
theorem At.clampTree (h : At b tree key) : At b.clampTree tree key := by
  obtain ⟨row, hrow, hkey⟩ := h.row
  have hlt : b.treeCursor < b.rows.length := (List.getElem?_eq_some_iff.mp hrow).choose
  have hsame : b.clampTree.treeCursor = b.treeCursor := Nat.min_eq_left (by omega)
  refine ⟨h.tree_eq, row, ?_, hkey⟩
  rw [cursorRow, hsame]
  exact hrow

theorem at_moveTreeCursor (htree : b.session.tree = some tree)
    (hrow : tree.visibleRows[n]? = some row) : At (b.moveTreeCursor n) tree row.key := by
  have hmoved := cursorRow_of_tree (b := { b with treeCursor := n }) htree
  exact At.clampTree ⟨htree, row, hmoved.trans hrow, rfl⟩

/-- Below the last row there is none to move to. -/
theorem moveTreeCursor_last (h : b.rows.length = n + 1) :
    b.moveTreeCursor (n + 1) = b.moveTreeCursor n := by
  have hclamped : ∀ m, n ≤ m → min m (b.rows.length - 1) = n := fun m hm => by
    rw [h, Nat.add_sub_cancel, Nat.min_eq_right hm]
  have hrows : ∀ m, { b with treeCursor := m }.rows = b.rows := fun _ => rfl
  simp only [moveTreeCursor, Browser.clampTree, hrows, hclamped n (Nat.le_refl n),
    hclamped (n + 1) (Nat.le_succ n)]

/-- A step down goes to the next row, if there is one. -/
theorem at_next (htree : b.session.tree = some tree)
    (hrow : tree.visibleRows[b.treeCursor]? = some row) :
    At (b.moveTreeCursor (b.treeCursor + 1)) tree
      ((tree.visibleRows[b.treeCursor + 1]?.map (·.key)).getD row.key) := by
  cases hnext : tree.visibleRows[b.treeCursor + 1]? with
  | some next => exact at_moveTreeCursor htree hnext
  | none =>
      have hlen : b.rows.length = b.treeCursor + 1 := by
        have hlt := (List.getElem?_eq_some_iff.mp hrow).choose
        have hle := List.getElem?_eq_none_iff.mp hnext
        rw [rows_of_tree htree]
        omega
      rw [moveTreeCursor_last hlen]
      exact at_moveTreeCursor htree hrow

/-- The cursor stays on a node that is opened or closed. -/
theorem at_mapTree (htree : b.session.tree = some tree) (hw : tree.hierarchy.WellFormed)
    (hrow : tree.visibleRows[b.treeCursor]? = some row) (mark : Bool) :
    At (b.mapTree (·.setOpen row.key mark)).clampTree (tree.setOpen row.key mark) row.key := by
  obtain ⟨row', hrow', hkey⟩ := tree.visibleRows_setOpen hw hrow mark
  have hmap : b.mapTree (·.setOpen row.key mark) =
      { b with session := b.session.setTree (tree.setOpen row.key mark) } := by
    rw [mapTree, htree]
  rw [hmap]
  exact At.clampTree ⟨rfl, row', hrow', hkey⟩

/-- The parent of a node, if it has one, is found among the rows. -/
theorem parentRow?_cases (htree : b.session.tree = some tree) (hw : tree.hierarchy.WellFormed)
    (hrow : row ∈ tree.visibleRows) :
    tree.parent? row.key = none ∧ b.parentRow? row.key = none ∨
      ∃ above n, tree.parent? row.key = some above.key ∧ b.parentRow? row.key = some n ∧
        tree.visibleRows[n]? = some above := by
  cases hparent : tree.parent? row.key with
  | none => exact .inl ⟨rfl, by simp [parentRow?, htree, hparent]⟩
  | some p =>
      obtain ⟨above, habove, hkey, _⟩ := tree.visibleRows_parent hw hrow hparent
      have hfound : b.parentRow? row.key = tree.visibleRows.findIdx? fun r => r.key == p := by
        simp [parentRow?, htree, hparent, rows_of_tree htree]
      cases hfind : tree.visibleRows.findIdx? fun r => r.key == p with
      | none =>
          have hnot := List.findIdx?_eq_none_iff.mp hfind above habove
          rw [hkey, beq_self_eq_true] at hnot
          cases hnot
      | some n =>
          obtain ⟨hn, hfits, _⟩ := List.findIdx?_eq_some_iff_getElem.mp hfind
          have hp : tree.visibleRows[n].key = p := eq_of_beq hfits
          exact .inr ⟨tree.visibleRows[n], n, by rw [hp], hfound.trans hfind,
            List.getElem?_eq_getElem hn⟩

/-! ## Actions in the tree -/

/-- What the actions in the tree do while the cursor is on a row. -/
structure Navigates (b : Browser) (tree : SelectionTree) (row : TreeRow) : Prop where
  /-- An open node is closed. -/
  closes : b.layout.focus = .tree → row.hasChildren = true → row.expanded = true →
    At (b.execute .collapse) (tree.collapse row.key) row.key
  /-- From any other node the cursor moves to the parent; on a root it stays. -/
  leaves : b.layout.focus = .tree → ¬ (row.hasChildren = true ∧ row.expanded = true) →
    At (b.execute .collapse) tree ((tree.parent? row.key).getD row.key)
  /-- A closed node is opened. -/
  opens : b.layout.focus = .tree → row.hasChildren = true → row.expanded = false →
    At (b.execute .expand) (tree.expand row.key) row.key
  /-- From an open node the cursor moves to the first child. -/
  enters : b.layout.focus = .tree → row.hasChildren = true → row.expanded = true →
    ∃ child, (tree.children row.key).head? = some child ∧ At (b.execute .expand) tree child
  /-- A node with children is opened or closed. -/
  turns : b.layout.focus = .tree → row.hasChildren = true →
    At (b.execute .activate) (tree.toggleExpanded row.key) row.key
  /-- The node, and no other, is toggled, and the cursor moves to the next row, if there is one. -/
  checks : b.session.state = .ready →
    At (b.execute .toggleCheck) (tree.toggle row.key).1
      ((b.rows[b.treeCursor + 1]?.map (·.key)).getD row.key)

theorem at_collapse (htree : b.session.tree = some tree) (hw : tree.hierarchy.WellFormed)
    (hrow : b.cursorRow = some row) (hfocus : b.layout.focus = .tree)
    (hclosed : ¬ (row.hasChildren = true ∧ row.expanded = true)) :
    At (b.execute .collapse) tree ((tree.parent? row.key).getD row.key) := by
  have hexecute : b.execute .collapse =
      b.moveTreeCursor ((b.parentRow? row.key).getD b.treeCursor) := by
    rw [← Bool.and_eq_true, Bool.not_eq_true] at hclosed
    simp [execute, collapse, hfocus, hrow, hclosed]
  have hrow' := (cursorRow_of_tree htree).symm.trans hrow
  rw [hexecute]
  rcases parentRow?_cases htree hw (List.mem_of_getElem? hrow') with
    ⟨hnone, hstays⟩ | ⟨above, n, hparent, hfound, hrow⟩
  · rw [hnone, hstays]
    exact at_moveTreeCursor htree hrow'
  · rw [hparent, hfound]
    exact at_moveTreeCursor htree hrow

theorem at_toggleCheck (htree : b.session.tree = some tree) (hw : tree.hierarchy.WellFormed)
    (hrow : b.cursorRow = some row) (hready : b.session.state = .ready) :
    At (b.execute .toggleCheck) (tree.toggle row.key).1
      ((b.rows[b.treeCursor + 1]?.map (·.key)).getD row.key) := by
  have heditable : b.session.editableTree = some tree := by
    rw [Session.editableTree, if_pos hready, htree]
  have hexecute : b.execute .toggleCheck =
      { b with session := b.session.setTree (tree.toggle row.key).1 }.moveTreeCursor
        (b.treeCursor + 1) := by
    simp only [execute, toggleCheck, hrow, mapMarks, heditable, Option.isSome_some, if_true]
  -- the rows of the toggled tree are of the same nodes
  have hkept : (tree.toggle row.key).1.visibleRows.map (·.key) = tree.visibleRows.map (·.key) :=
    SelectionTree.map_key_visibleRows_step hw (.toggle row.key) rfl
  have hkeys : ∀ m : Nat, ((tree.toggle row.key).1.visibleRows[m]?).map (·.key) =
      (tree.visibleRows[m]?).map (·.key) := fun m => by
    rw [← List.getElem?_map, ← List.getElem?_map, hkept]
  obtain ⟨row', hrow', hkey⟩ :
      ∃ row', (tree.toggle row.key).1.visibleRows[b.treeCursor]? = some row' ∧
        row'.key = row.key := by
    rw [← Option.map_eq_some_iff, hkeys, ← cursorRow_of_tree htree, hrow, Option.map_some]
  have hnext := at_next
    (b := { b with session := b.session.setTree (tree.toggle row.key).1 }) rfl hrow'
  rw [hexecute, rows_of_tree htree]
  rwa [hkeys, hkey] at hnext

theorem navigates (htree : b.session.tree = some tree) (hw : tree.hierarchy.WellFormed)
    (hrow : b.cursorRow = some row) : Navigates b tree row where
  closes := by
    intro hfocus hchildren hopen
    have hexecute : b.execute .collapse = (b.mapTree (·.collapse row.key)).clampTree := by
      simp [execute, collapse, hfocus, hrow, hchildren, hopen]
    rw [hexecute]
    exact at_mapTree htree hw ((cursorRow_of_tree htree).symm.trans hrow) false
  leaves := at_collapse htree hw hrow
  opens := by
    intro hfocus hchildren hclosed
    have hexecute : b.execute .expand = (b.mapTree (·.expand row.key)).clampTree := by
      simp [execute, expand, hfocus, hrow, hchildren, hclosed]
    rw [hexecute]
    exact at_mapTree htree hw ((cursorRow_of_tree htree).symm.trans hrow) true
  enters := by
    intro hfocus hchildren hopen
    have hexecute : b.execute .expand = b.moveTreeCursor (b.treeCursor + 1) := by
      simp [execute, expand, hfocus, hrow, hchildren, hopen]
    obtain ⟨child, hchild, hfirst⟩ := tree.visibleRows_first_child hw
      ((cursorRow_of_tree htree).symm.trans hrow) hopen hchildren
    rw [hexecute]
    exact ⟨child.key, hfirst, at_moveTreeCursor htree hchild⟩
  turns := by
    intro hfocus hchildren
    have hexecute : b.execute .activate = (b.mapTree (·.toggleExpanded row.key)).clampTree := by
      simp [execute, activate, hfocus, hrow, hchildren]
    rw [hexecute, mapTree, htree]
    have h := at_mapTree htree hw ((cursorRow_of_tree htree).symm.trans hrow)
      (!tree.isExpanded row.key)
    rw [mapTree, htree] at h
    exact h
  checks := at_toggleCheck htree hw hrow

/-! ## Runs -/

/-- **The cursor of the tree is on a node**: after any events, if there are rows, the cursor is on
one of them, and what the actions in the tree do there, they do to its node. -/
theorem cursor_run (config : Config) (env : Config.Environment) (dir : String)
    (files : FileStore) (events : List Event) :
    let b := (new config env dir files).run events
    (b.rows ≠ [] → b.treeCursor < b.rows.length) ∧
      ∀ tree row, b.session.tree = some tree → b.cursorRow = some row → Navigates b tree row := by
  intro b
  have hnew : InRows (new config env dir files) := inRows_of_top rfl
  refine ⟨hnew.run nofun events, fun tree row htree hrow => ?_⟩
  have hgrown : tree.Grown := grownTree_run config env dir files events tree htree
  exact navigates htree hgrown.consistent.wellFormed hrow

/-- An installer with two files in a directory is loaded. -/
def directoryEvents : List Event :=
  [ .addFiles ["setup.exe"], .action .loadInstaller
  , .worker .take, .worker (.reply (.ok "\x7b\"name\":\"Setup\"\x7d")), .tick
  , .worker .take
  , .worker (.reply (.ok ("[\x7b\"node\":1,\"name\":\"app\"\x7d," ++
      "\x7b\"node\":2,\"name\":\"a.txt\",\"fileId\":1,\"parentId\":1\x7d," ++
      "\x7b\"node\":3,\"name\":\"b.txt\",\"fileId\":2,\"parentId\":1\x7d]")))
  , .tick ]

/-- On the directory, which is open, `expand` moves to its first file, and `toggleCheck` unchecks
the directory and moves there as well. -/
theorem cursor_run_directory :
    let b := (new {} atHome "out" setupFiles).run directoryEvents
    b.treeCursor < b.rows.length ∧
    ∃ tree row, b.session.tree = some tree ∧ b.cursorRow = some row ∧ row.key = 1 ∧
      b.layout.focus = .tree ∧ row.hasChildren = true ∧ row.expanded = true ∧
      At (b.execute .expand) tree 2 ∧ b.session.state = .ready ∧
      At (b.execute .toggleCheck) (tree.toggle 1).1 2 := by
  intro b
  have hstart : b.rows ≠ [] ∧ b.layout.focus = .tree ∧ b.session.state = .ready ∧
      b.rows[b.treeCursor + 1]?.map (·.key) = some 2 ∧
      b.cursorRow.map (fun row => (row.key, row.hasChildren, row.expanded)) =
        some (1, true, true) ∧
      b.session.tree.map (fun tree => (tree.children 1).head?) = some (some 2) := by
    decide +kernel
  obtain ⟨hrows, hfocus, hready, hnext, hshown, hfirst⟩ := hstart
  obtain ⟨row, hrow, hshown⟩ := Option.map_eq_some_iff.mp hshown
  obtain ⟨tree, htree, hfirst⟩ := Option.map_eq_some_iff.mp hfirst
  rw [Prod.mk.injEq, Prod.mk.injEq] at hshown
  obtain ⟨hkey, hchildren, hopen⟩ := hshown
  obtain ⟨hin, hall⟩ := cursor_run {} atHome "out" setupFiles directoryEvents
  have hnavigates := hall tree row htree hrow
  obtain ⟨child, hchild, hentered⟩ := hnavigates.enters hfocus hchildren hopen
  rw [hkey, hfirst, Option.some.injEq] at hchild
  have hchecked := hnavigates.checks hready
  rw [hkey, hnext, Option.getD_some] at hchecked
  exact ⟨hin hrows, tree, row, htree, hrow, hkey, hfocus, hchildren, hopen, hchild ▸ hentered,
    hready, hchecked⟩

end Browser

end InstallerBrowser
