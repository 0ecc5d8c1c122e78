import InstallerBrowser.Screen.Rect

/-!
# InstallerBrowser.Screen.Layout

Where the panels stand.

A wide screen shows all panels: the queue above the installer's information on the left, the tree
above the log on the right. A compact one shows the panel that has the focus above the log. Both
have a status bar and a command bar in the last two rows. On a smaller screen nothing but a
warning is shown.
-/

namespace InstallerBrowser

/-! ## Modes -/

/-- How much a screen can show. -/
inductive LayoutMode where
  | wide
  | compact
  | tooSmall
deriving Repr, DecidableEq, Inhabited

/-- The panel that keys go to. -/
inductive Focus where
  | queue
  | tree
deriving Repr, DecidableEq, Inhabited

/-- The other panel. -/
def Focus.other : Focus → Focus
  | .queue => .tree
  | .tree => .queue

namespace Layout

/-- The smallest width on which panels are shown. -/
def minWidth : Nat := 60

/-- The smallest height on which panels are shown. -/
def minHeight : Nat := 16

/-- The smallest width on which all panels are shown. -/
def wideWidth : Nat := 100

/-- The rows of the installer's information. -/
def infoHeight : Nat := 7

/-- The rows of the log on a wide screen. -/
def logHeight : Nat := 8

/-- The rows of the log on a compact screen. -/
def compactLogHeight : Nat := 6

/-- The mode for a size. -/
def modeOf (width height : Nat) : LayoutMode :=
  if width < minWidth ∨ height < minHeight then .tooSmall
  else if width < wideWidth then .compact
  else .wide

/-- The columns of the queue on a wide screen: 35 of a hundred, a half counting as one. -/
def leftWidth (width : Nat) : Nat := (35 * width + 50) / 100

/-- The places of the panels; a panel that is not shown has an empty place. -/
structure Areas where
  queue : Rect := {}
  info : Rect := {}
  tree : Rect := {}
  log : Rect := {}
  statusBar : Rect := {}
  commandBar : Rect := {}
  warning : Rect := {}
deriving Repr, DecidableEq, Inhabited

/-- The body of a screen, the status bar and the command bar. -/
def splitBars (screen : Rect) : Rect × Rect × Rect :=
  let (rest, commandBar) := screen.cutBottom 1
  let (body, statusBar) := rest.cutBottom 1
  (body, statusBar, commandBar)

/-- The places on a wide screen. -/
def wideAreas (screen : Rect) : Areas :=
  let (body, statusBar, commandBar) := splitBars screen
  let (left, right) := body.cutLeft (leftWidth body.width)
  let (queue, info) := left.cutBottom infoHeight
  let (tree, log) := right.cutBottom logHeight
  { queue, info, tree, log, statusBar, commandBar }

/-- The places on a compact screen. -/
def compactAreas (focus : Focus) (screen : Rect) : Areas :=
  let (body, statusBar, commandBar) := splitBars screen
  let (panel, log) := body.cutBottom compactLogHeight
  match focus with
  | .queue => { queue := panel, log, statusBar, commandBar }
  | .tree => { tree := panel, log, statusBar, commandBar }

/-- The places on a screen. -/
def areasOf (focus : Focus) (screen : Rect) : Areas :=
  match modeOf screen.width screen.height with
  | .tooSmall => { warning := screen }
  | .compact => compactAreas focus screen
  | .wide => wideAreas screen

end Layout

/-! ## The layout in use -/

/-- The focus, the size of the screen and the places that follow from them. -/
structure Layout where
  mode : LayoutMode := .wide
  focus : Focus := .queue
  width : Nat := 120
  height : Nat := 30
  areas : Layout.Areas := {}
deriving Repr, DecidableEq, Inhabited

namespace Layout

/-- The layout of a screen. -/
def update (l : Layout) (screen : Rect) : Layout :=
  { l with
    mode := modeOf screen.width screen.height
    width := screen.width
    height := screen.height
    areas := areasOf l.focus screen }

/-- Moves the focus to the other panel. -/
def toggleFocus (l : Layout) : Layout :=
  { l with focus := l.focus.other }.update { width := l.width, height := l.height }

/-- Moves the focus to a panel. -/
def setFocus (l : Layout) (focus : Focus) : Layout :=
  if l.focus = focus then l else l.toggleFocus

/-- Whether nothing but a warning is shown. -/
def isTooSmall (l : Layout) : Bool := l.mode == .tooSmall

/-- How many rows of the tree fit into its panel. -/
def treeRows (l : Layout) : Nat := l.areas.tree.height - 2

/-- An operation on a layout. -/
inductive Operation where
  | update (screen : Rect)
  | toggleFocus
  | setFocus (focus : Focus)
deriving Repr, DecidableEq

/-- The layout after one operation. -/
def step (l : Layout) : Operation → Layout
  | .update screen => l.update screen
  | .toggleFocus => l.toggleFocus
  | .setFocus focus => l.setFocus focus

/-- The layout after a sequence of operations. -/
def run (l : Layout) (ops : List Operation) : Layout := ops.foldl step l

end Layout

end InstallerBrowser
