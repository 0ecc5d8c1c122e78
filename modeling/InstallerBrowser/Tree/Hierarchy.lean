import InstallerBrowser.Installer.Entry

/-!
# InstallerBrowser.Tree.Hierarchy

The tree that a listing describes.

A `Hierarchy` numbers the entries of a listing in their order and links them both ways: each
node holds its parent and its children, the children in listing order. `Hierarchy.build` accepts
a listing if its keys are distinct, every parent is listed, every entry descends from one without
a parent, and at most one entry, without a parent, is the main root; `ListingFault` names the
first rule that is broken.

`traverse` is the one worklist that all walks down the tree share, `ancestors` the one walk up.
Both carry a bound on their steps; the number of nodes is always enough.
-/

namespace InstallerBrowser

/-! ## Nodes -/

/-- An entry in its place in the tree; parent and children are given by their numbers. -/
structure Node where
  entry : Entry
  parent : Option Nat
  children : List Nat
  /-- How many ancestors the node has. -/
  depth : Nat
deriving Repr, DecidableEq, Inhabited

/-- The nodes of a listing, linked. -/
structure Hierarchy where
  nodes : Array Node
  roots : List Nat
  /-- All nodes, parents before their children. -/
  order : List Nat
  mainRoot : Option Nat
deriving Repr, Inhabited

/-- The rule that a listing breaks. -/
inductive ListingFault where
  | duplicateKey (key : NodeKey)
  | missingParent (key parent : NodeKey)
  | mainRootWithParent (key : NodeKey)
  | secondMainRoot
  | cycle (key : NodeKey)
deriving Repr, DecidableEq

/-- The wording of a broken rule. -/
def ListingFault.message : ListingFault → String
  | .duplicateKey key => "duplicate node key " ++ toString key
  | .missingParent key parent =>
    "entry " ++ toString key ++ " references missing parent " ++ toString parent
  | .mainRootWithParent key => "main root " ++ toString key ++ " has a parent"
  | .secondMainRoot => "more than one main root"
  | .cycle key => "cycle detected at entry " ++ toString key

/-! ## Walks -/

/-- Takes nodes off the front of a worklist and puts those that `next` gives in their place,
`bound` times at most: the nodes in the order in which they were taken, and what is left. -/
def traverse (next : Nat → List Nat) : Nat → List Nat → List Nat × List Nat
  | 0, work => ([], work)
  | _ + 1, [] => ([], [])
  | bound + 1, i :: work =>
    let (taken, left) := traverse next bound (next i ++ work)
    (i :: taken, left)

/-- Goes from a node to its parent, `bound` times at most: the nodes reached, nearest first. -/
def climb (parent : Nat → Option Nat) : Nat → Nat → List Nat
  | 0, _ => []
  | bound + 1, i =>
    match parent i with
    | none => []
    | some p => p :: climb parent bound p

/-- The generations below some nodes: the nodes, their children, and so on, `bound` times at
most, down to the last generation that is not empty. -/
def generations (children : Nat → List Nat) : Nat → List Nat → List (List Nat)
  | 0, _ => []
  | bound + 1, level =>
    if level.isEmpty then []
    else level :: generations children bound (level.flatMap children)

namespace Hierarchy

/-! ## Looking up -/

/-- How many nodes there are. -/
def size (h : Hierarchy) : Nat := h.nodes.size

/-- The node of a number. -/
def node? (h : Hierarchy) (i : Nat) : Option Node := h.nodes[i]?

/-- The children of a node, in listing order. -/
def children (h : Hierarchy) (i : Nat) : List Nat :=
  match h.node? i with
  | some node => node.children
  | none => []

/-- The parent of a node. -/
def parent (h : Hierarchy) (i : Nat) : Option Nat :=
  match h.node? i with
  | some node => node.parent
  | none => none

/-- Whether a node is the main root. -/
def isMainRoot (h : Hierarchy) (i : Nat) : Bool := h.mainRoot == some i

/-- The key of a node. -/
def key (h : Hierarchy) (i : Nat) : NodeKey :=
  match h.node? i with
  | some node => node.entry.node
  | none => 0

/-- The number of the node with a key. -/
def indexOf? (h : Hierarchy) (key : NodeKey) : Option Nat :=
  h.nodes.findIdx? fun node => node.entry.node == key

/-- The ancestors of a node, its parent first. -/
def ancestors (h : Hierarchy) (i : Nat) : List Nat := climb h.parent h.size i

/-- A node and all its descendants, each before its own children. -/
def subtree (h : Hierarchy) (i : Nat) : List Nat := (traverse h.children h.size [i]).1

/-! ## Paths -/

/-- The separator between the names of a path inside an installer. -/
def pathSeparator : String := "\\"

/-- The names that lead to a node, its own last; the main root has none. -/
def pathNames (h : Hierarchy) (i : Nat) : List String :=
  ((i :: h.ancestors i).reverse.filter fun j => !h.isMainRoot j).filterMap fun j =>
    (h.node? j).map (·.entry.name)

/-- The path of a node. -/
def path (h : Hierarchy) (i : Nat) : String := pathSeparator.intercalate (h.pathNames i)

/-! ## Building -/

/-- The first key that occurs a second time. -/
def firstDuplicate? : List NodeKey → List NodeKey → Option NodeKey
  | _, [] => none
  | seen, key :: rest => if key ∈ seen then some key else firstDuplicate? (key :: seen) rest

/-- The number of the parent of an entry. -/
def linkParent (keys : List NodeKey) (e : Entry) : Except ListingFault (Option Nat) :=
  match e.parentId with
  | none => .ok none
  | some parent =>
    match keys.idxOf? parent with
    | some i => .ok (some i)
    | none => .error (.missingParent e.node parent)

/-- The parents of the entries from number `i` on, and the main root, given the one met before. -/
def link (keys : List NodeKey) :
    Nat → Option Nat → List Entry → Except ListingFault (List (Option Nat) × Option Nat)
  | _, mainRoot, [] => .ok ([], mainRoot)
  | i, mainRoot, e :: rest => do
    let parent ← linkParent keys e
    let mainRoot ←
      if e.isMainRoot then
        if parent.isSome then .error (.mainRootWithParent e.node)
        else if mainRoot.isSome then .error .secondMainRoot
        else .ok (some i)
      else .ok mainRoot
    let (parents, mainRoot) ← link keys (i + 1) mainRoot rest
    .ok (parent :: parents, mainRoot)

/-- The numbers of the entries with a given parent, in listing order. -/
def withParent (parents : List (Option Nat)) (parent : Option Nat) : List Nat :=
  (parents.zipIdx.filter fun (p, _) => p == parent).map (·.2)

/-- The number of the generation that holds a node. -/
def generationOf (levels : List (List Nat)) (i : Nat) : Nat :=
  levels.findIdx fun level => level.contains i

/-- The tree of a listing, or the rule that the listing breaks. -/
def build (entries : List Entry) : Except ListingFault Hierarchy := do
  let keys := entries.map (·.node)
  match firstDuplicate? [] keys with
  | some key => .error (.duplicateKey key)
  | none => do
    let (parents, mainRoot) ← link keys 0 none entries
    let children := (List.range parents.length).map fun i => withParent parents (some i)
    let childTable := children.toArray
    let childrenOf (i : Nat) : List Nat := childTable.getD i []
    let roots := withParent parents none
    let levels := generations childrenOf entries.length roots
    let order := levels.flatten
    let stray := (List.range entries.length).find? fun i => !order.contains i
    match stray with
    | some i => .error (.cycle (keys.getD i 0))
    | none =>
      let nodes := (entries.zip (parents.zip children)).mapIdx
        fun i (e, p, c) => Node.mk e p c (generationOf levels i)
      .ok { nodes := nodes.toArray, roots, order, mainRoot }

end Hierarchy

end InstallerBrowser
