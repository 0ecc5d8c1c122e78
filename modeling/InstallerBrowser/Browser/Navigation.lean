import InstallerBrowser.Browser.Extraction
import InstallerBrowser.Measure

/-!
# InstallerBrowser.Browser.Navigation

Moving around in the queue and in the tree.

The cursor of the tree is the number of a row. After every move it is put back among the rows, and
the panel is scrolled so that it stays in view (`clampTree`).
-/

namespace InstallerBrowser.Browser

/-- Puts the cursor of the tree among its rows and into view. -/
def clampTree (b : Browser) : Browser :=
  let treeCursor := min b.treeCursor (b.rows.length - 1)
  { b with treeCursor, treeScroll := Measure.keepInView treeCursor b.treeScroll b.layout.treeRows }

/-- Puts the cursor of the tree on a row. -/
def moveTreeCursor (b : Browser) (row : Nat) : Browser := { b with treeCursor := row }.clampTree

/-- Brings the selected file of the queue into view. -/
def showSelected (b : Browser) : Browser :=
  match b.queue.selected with
  | some i =>
    { b with queueScroll := Measure.keepInView i b.queueScroll (b.layout.areas.queue.height - 2) }
  | none => b

/-- Changes the queue and brings the selected file into view. -/
def moveInQueue (b : Browser) (f : FileQueue → FileQueue) : Browser :=
  { b with queue := f b.queue }.showSelected

/-- Changes the tree, if there is one. -/
def mapTree (b : Browser) (f : SelectionTree → SelectionTree) : Browser :=
  match b.session.tree with
  | some tree => { b with session := b.session.setTree (f tree) }
  | none => b

/-- Changes the check marks of the tree, if they may be changed. -/
def mapMarks (b : Browser) (f : SelectionTree → SelectionTree) : Browser :=
  match b.session.editableTree with
  | some tree => { b with session := b.session.setTree (f tree) }
  | none => b

/-- The row with the cursor. -/
def cursorRow (b : Browser) : Option TreeRow := b.rows[b.treeCursor]?

/-- Moves down. -/
def moveDown (b : Browser) : Browser :=
  match b.layout.focus with
  | .queue => b.moveInQueue (·.next)
  | .tree => b.moveTreeCursor (b.treeCursor + 1)

/-- Moves up. -/
def moveUp (b : Browser) : Browser :=
  match b.layout.focus with
  | .queue => b.moveInQueue (·.prev)
  | .tree => b.moveTreeCursor (b.treeCursor - 1)

/-- Moves to the top. -/
def goToTop (b : Browser) : Browser :=
  match b.layout.focus with
  | .queue => b.moveInQueue fun q => (q.select 0).1
  | .tree => b.moveTreeCursor 0

/-- Moves to the bottom. -/
def goToBottom (b : Browser) : Browser :=
  match b.layout.focus with
  | .queue => b.moveInQueue fun q => (q.select (q.size - 1)).1
  | .tree => b.moveTreeCursor b.rows.length

/-- The row of the parent of a node. -/
def parentRow? (b : Browser) (key : NodeKey) : Option Nat := do
  let tree ← b.session.tree
  let parent ← tree.parent? key
  b.rows.findIdx? fun r => r.key == parent

/-- Closes the node with the cursor, or moves to its parent if it is not open. -/
def collapse (b : Browser) : Browser :=
  match b.layout.focus, b.cursorRow with
  | .tree, some row =>
    if row.hasChildren && row.expanded then (b.mapTree (·.collapse row.key)).clampTree
    else b.moveTreeCursor ((b.parentRow? row.key).getD b.treeCursor)
  | _, _ => b

/-- Opens the node with the cursor, or moves to its first child if it is open. -/
def expand (b : Browser) : Browser :=
  match b.layout.focus, b.cursorRow with
  | .tree, some row =>
    if !row.hasChildren then b
    else if row.expanded then b.moveTreeCursor (b.treeCursor + 1)
    else (b.mapTree (·.expand row.key)).clampTree
  | _, _ => b

/-- Checks or unchecks the node with the cursor, and moves down. -/
def toggleCheck (b : Browser) : Browser :=
  match b.cursorRow with
  | none => b
  | some row =>
    if b.session.editableTree.isSome then
      (b.mapMarks fun tree => (tree.toggle row.key).1).moveTreeCursor (b.treeCursor + 1)
    else b.tellLocked "Selection is locked"

/-- Loads the selected file of the queue; in the tree, opens or closes a node with children and
checks or unchecks one without. -/
def activate (b : Browser) : Browser :=
  match b.layout.focus with
  | .queue => b.loadSelected
  | .tree =>
    match b.cursorRow with
    | none => b
    | some row =>
      if row.hasChildren then (b.mapTree (·.toggleExpanded row.key)).clampTree else b.toggleCheck

end InstallerBrowser.Browser
