import InstallerBrowser.Tree.Hierarchy

/-!
# InstallerBrowser.Tree.Selection

Choosing what to extract from a tree.

Every node has a check mark and an open mark. The check marks of childless nodes say what is
chosen; the state of any node follows from those below it (`stateOf`, one walk for one node, and
`allStates`, one table for all). The mark of a node with children is kept so that it is set if
and only if its state is not unchecked: checking sets it upwards until a set one is met, and
unchecking clears it upwards as long as no child is marked.
-/

namespace InstallerBrowser

/-! ## States -/

/-- How much of a node is chosen. -/
inductive CheckState where
  | checked
  | unchecked
  | partly
deriving Repr, DecidableEq, Inhabited

/-- The state of a childless node with a given mark. -/
def CheckState.ofMark (mark : Bool) : CheckState := if mark then .checked else .unchecked

/-- The state of a node whose children have the given states. -/
def CheckState.combine (states : List CheckState) : CheckState :=
  if states.all (· == .checked) then .checked
  else if states.all (· == .unchecked) then .unchecked
  else .partly

/-- What is chosen, in few words: files, and directories that are chosen as a whole. -/
structure CheckedSet where
  files : List FileId := []
  dirs : List String := []
deriving Repr, DecidableEq, Inhabited

/-- Whether nothing is chosen. -/
def CheckedSet.isEmpty (s : CheckedSet) : Bool := s.files.isEmpty && s.dirs.isEmpty

/-- A row of the tree as it is shown. -/
structure TreeRow where
  key : NodeKey
  name : String
  depth : Nat
  state : CheckState
  hasChildren : Bool
  expanded : Bool
  isFile : Bool
  languages : Option String
deriving Repr, DecidableEq, Inhabited

/-! ## The tree and its marks -/

/-- A tree with a check mark and an open mark for each node. -/
structure SelectionTree where
  hierarchy : Hierarchy
  checked : Array Bool
  expanded : Array Bool
deriving Repr, Inhabited

namespace SelectionTree

/-- A tree in which everything is checked and the roots are open. -/
def ofHierarchy (h : Hierarchy) : SelectionTree :=
  { hierarchy := h
    checked := Array.replicate h.size true
    expanded := ((List.range h.size).map fun i => h.roots.contains i).toArray }

/-- The tree of a listing, with everything checked and the roots open. -/
def build (entries : List Entry) : Except ListingFault SelectionTree :=
  (Hierarchy.build entries).map ofHierarchy

/-- How many nodes there are. -/
def size (t : SelectionTree) : Nat := t.hierarchy.size

/-- The mark of a node in a row of marks. -/
def markIn (marks : Array Bool) (i : Nat) : Bool := marks.getD i false

/-- The check mark of a node. -/
def isMarked (t : SelectionTree) (i : Nat) : Bool := markIn t.checked i

/-- The open mark of a node. -/
def isOpen (t : SelectionTree) (i : Nat) : Bool := markIn t.expanded i

/-- A row of marks in which those of some nodes are changed. -/
def setMarks (marks : Array Bool) (nodes : List Nat) (mark : Bool) : Array Bool :=
  nodes.foldl (fun marks i => marks.setIfInBounds i mark) marks

/-! ## States of nodes -/

/-- The state of one node: a walk over the childless nodes at or below it. -/
def stateOf (t : SelectionTree) (i : Nat) : CheckState :=
  let leaves := (t.hierarchy.subtree i).filter fun j => (t.hierarchy.children j).isEmpty
  if leaves.any t.isMarked && leaves.any (!t.isMarked ·) then .partly
  else if leaves.any (!t.isMarked ·) then .unchecked
  else .checked

/-- One step of the table of states: a node from its children. -/
def fillState (t : SelectionTree) (states : Array CheckState) (i : Nat) : Array CheckState :=
  let children := t.hierarchy.children i
  let state :=
    if children.isEmpty then CheckState.ofMark (t.isMarked i)
    else CheckState.combine (children.map fun c => states.getD c .unchecked)
  states.setIfInBounds i state

/-- The states of all nodes, children before their parents. -/
def allStates (t : SelectionTree) : Array CheckState :=
  t.hierarchy.order.reverse.foldl t.fillState (Array.replicate t.size .unchecked)

/-- The state of the node with a key. -/
def state? (t : SelectionTree) (key : NodeKey) : Option CheckState :=
  (t.hierarchy.indexOf? key).map t.stateOf

/-- Whether the node with a key is checked. -/
def isChecked (t : SelectionTree) (key : NodeKey) : Bool := t.state? key == some .checked

/-! ## Checking and unchecking -/

/-- The tree with all check marks set or cleared. -/
def markAll (t : SelectionTree) (mark : Bool) : SelectionTree :=
  { t with checked := t.checked.map fun _ => mark }

/-- Checks every node. -/
def checkAll (t : SelectionTree) : SelectionTree := t.markAll true

/-- Unchecks every node. -/
def uncheckAll (t : SelectionTree) : SelectionTree := t.markAll false

/-- Marks the nodes of a walk up to the root, up to the first that is marked already. -/
def markUp (marks : Array Bool) : List Nat → Array Bool
  | [] => marks
  | p :: rest =>
    if markIn marks p then marks else markUp (marks.setIfInBounds p true) rest

/-- Clears the marks of the nodes of a walk up to the root, up to the first that has a marked
child. -/
def clearUp (h : Hierarchy) (marks : Array Bool) : List Nat → Array Bool
  | [] => marks
  | p :: rest =>
    if (h.children p).any (markIn marks) then marks
    else clearUp h (marks.setIfInBounds p false) rest

/-- Checks a node and all below it; the main root stands for every node. Answers whether the
node was not checked before. -/
def checkNode (t : SelectionTree) (i : Nat) : SelectionTree × Bool :=
  if t.hierarchy.isMainRoot i then
    if t.checked.all id then (t, false) else (t.checkAll, true)
  else if t.stateOf i = .checked then (t, false)
  else
    let marks := setMarks t.checked (t.hierarchy.subtree i) true
    ({ t with checked := markUp marks (t.hierarchy.ancestors i) }, true)

/-- Unchecks a node and all below it; the main root stands for every node. Answers whether the
node was not unchecked before. -/
def uncheckNode (t : SelectionTree) (i : Nat) : SelectionTree × Bool :=
  if t.hierarchy.isMainRoot i then
    if t.checked.all (!·) then (t, false) else (t.uncheckAll, true)
  else if t.stateOf i = .unchecked then (t, false)
  else
    let marks := setMarks t.checked (t.hierarchy.subtree i) false
    ({ t with checked := clearUp t.hierarchy marks (t.hierarchy.ancestors i) }, true)

/-- Checks the node with a key. -/
def check (t : SelectionTree) (key : NodeKey) : SelectionTree × Bool :=
  match t.hierarchy.indexOf? key with
  | none => (t, false)
  | some i => t.checkNode i

/-- Unchecks the node with a key. -/
def uncheck (t : SelectionTree) (key : NodeKey) : SelectionTree × Bool :=
  match t.hierarchy.indexOf? key with
  | none => (t, false)
  | some i => t.uncheckNode i

/-- Unchecks the node with a key if it is checked, and checks it otherwise. -/
def toggle (t : SelectionTree) (key : NodeKey) : SelectionTree × Bool :=
  match t.state? key with
  | some .checked => t.uncheck key
  | some _ => t.check key
  | none => (t, false)

/-! ## What is chosen -/

/-- The choice in few words: a checked node stands for all below it. -/
def checkedSet (t : SelectionTree) : CheckedSet :=
  let h := t.hierarchy
  let states := t.allStates
  let isReported (i : Nat) : Bool :=
    states.getD i .unchecked == .checked && !h.isMainRoot i
  let next (i : Nat) : List Nat :=
    if states.getD i .unchecked == .unchecked || isReported i then [] else h.children i
  let reported := (traverse next h.size h.roots).1.filter isReported
  { files := reported.filterMap fun i => (h.node? i).bind (·.entry.fileId)
    dirs := (reported.filter fun i => ((h.node? i).bind (·.entry.fileId)).isNone).map h.path }

/-- How many files are marked. -/
def checkedCount (t : SelectionTree) : Nat :=
  ((List.range t.size).filter fun i =>
    ((t.hierarchy.node? i).bind (·.entry.fileId)).isSome && t.isMarked i).length

/-- How many files there are. -/
def fileCount (t : SelectionTree) : Nat :=
  ((List.range t.size).filter fun i =>
    ((t.hierarchy.node? i).bind (·.entry.fileId)).isSome).length

/-! ## Opening and closing -/

/-- Opens or closes the node with a key. -/
def setOpen (t : SelectionTree) (key : NodeKey) (mark : Bool) : SelectionTree :=
  match t.hierarchy.indexOf? key with
  | none => t
  | some i => { t with expanded := t.expanded.setIfInBounds i mark }

/-- Opens the node with a key. -/
def expand (t : SelectionTree) (key : NodeKey) : SelectionTree := t.setOpen key true

/-- Closes the node with a key. -/
def collapse (t : SelectionTree) (key : NodeKey) : SelectionTree := t.setOpen key false

/-- Whether the node with a key is open. -/
def isExpanded (t : SelectionTree) (key : NodeKey) : Bool :=
  match t.hierarchy.indexOf? key with
  | none => false
  | some i => t.isOpen i

/-- Closes the node with a key if it is open, and opens it otherwise. -/
def toggleExpanded (t : SelectionTree) (key : NodeKey) : SelectionTree :=
  t.setOpen key (!t.isExpanded key)

/-! ## Rows -/

/-- The nodes of which all ancestors are open, each before its children. -/
def visibleNodes (t : SelectionTree) : List Nat :=
  (traverse (fun i => if t.isOpen i then t.hierarchy.children i else [])
    t.size t.hierarchy.roots).1

/-- The row of a node. -/
def row (t : SelectionTree) (states : Array CheckState) (i : Nat) : Option TreeRow :=
  (t.hierarchy.node? i).map fun node =>
    { key := node.entry.node
      name := node.entry.name
      depth := node.depth
      state := states.getD i .unchecked
      hasChildren := !node.children.isEmpty
      expanded := t.isOpen i
      isFile := node.entry.isFile
      languages := node.entry.languages }

/-- The rows that are shown. -/
def visibleRows (t : SelectionTree) : List TreeRow :=
  let states := t.allStates
  t.visibleNodes.filterMap (t.row states)

/-! ## Relations by key -/

/-- Whether there is a node with a key. -/
def contains (t : SelectionTree) (key : NodeKey) : Bool := (t.hierarchy.indexOf? key).isSome

/-- The keys of the roots. -/
def roots (t : SelectionTree) : List NodeKey := t.hierarchy.roots.map t.hierarchy.key

/-- The key of the main root. -/
def mainRoot (t : SelectionTree) : Option NodeKey := t.hierarchy.mainRoot.map t.hierarchy.key

/-- The name of the node with a key. -/
def name? (t : SelectionTree) (key : NodeKey) : Option String :=
  (t.hierarchy.indexOf? key).bind fun i => (t.hierarchy.node? i).map (·.entry.name)

/-- The key of the parent of the node with a key. -/
def parent? (t : SelectionTree) (key : NodeKey) : Option NodeKey :=
  ((t.hierarchy.indexOf? key).bind t.hierarchy.parent).map t.hierarchy.key

/-- The keys of the children of the node with a key. -/
def children (t : SelectionTree) (key : NodeKey) : List NodeKey :=
  match t.hierarchy.indexOf? key with
  | none => []
  | some i => (t.hierarchy.children i).map t.hierarchy.key

/-- The keys of the other nodes with the same parent; a root has the other roots. -/
def siblings (t : SelectionTree) (key : NodeKey) : List NodeKey :=
  match t.hierarchy.indexOf? key with
  | none => []
  | some i =>
    let peers :=
      match t.hierarchy.parent i with
      | some p => t.hierarchy.children p
      | none => t.hierarchy.roots
    (peers.filter (· != i)).map t.hierarchy.key

/-- The path of the node with a key. -/
def path? (t : SelectionTree) (key : NodeKey) : Option String :=
  (t.hierarchy.indexOf? key).map t.hierarchy.path

/-! ## Runs -/

/-- An operation on the marks of a tree. -/
inductive Operation where
  | check (key : NodeKey)
  | uncheck (key : NodeKey)
  | toggle (key : NodeKey)
  | checkAll
  | uncheckAll
  | expand (key : NodeKey)
  | collapse (key : NodeKey)
  | toggleExpanded (key : NodeKey)
deriving Repr, DecidableEq

/-- The tree after one operation. -/
def step (t : SelectionTree) : Operation → SelectionTree
  | .check key => (t.check key).1
  | .uncheck key => (t.uncheck key).1
  | .toggle key => (t.toggle key).1
  | .checkAll => t.checkAll
  | .uncheckAll => t.uncheckAll
  | .expand key => t.expand key
  | .collapse key => t.collapse key
  | .toggleExpanded key => t.toggleExpanded key

/-- The tree after a sequence of operations. -/
def run (t : SelectionTree) (ops : List Operation) : SelectionTree := ops.foldl step t

end SelectionTree

end InstallerBrowser
