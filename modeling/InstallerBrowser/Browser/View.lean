import InstallerBrowser.Browser.Basic
import InstallerBrowser.Panel.CommandBar
import InstallerBrowser.Panel.Dialog
import InstallerBrowser.Panel.Info
import InstallerBrowser.Panel.Log
import InstallerBrowser.Panel.Queue
import InstallerBrowser.Panel.StatusBar
import InstallerBrowser.Panel.Tree
import InstallerBrowser.Panel.Warning

/-!
# InstallerBrowser.Browser.View

What the browser looks like on the screen it was fitted to.
-/

namespace InstallerBrowser.Browser

/-! ## Panels -/

/-- The panel of the queue. -/
def queuePanel (b : Browser) : QueuePanel :=
  { files := b.queue.files, selected := b.queue.selected, scroll := b.queueScroll
    active := b.layout.focus == .queue, loaded := b.session.currentFile, theme := b.theme }

/-- The panel of the installer's information. -/
def infoPanel (b : Browser) : InfoPanel :=
  { metadata := b.session.metadata, language := b.session.selectedLanguage
    loading := b.session.state == .loading, theme := b.theme }

/-- The title of the tree: the name of the installer, and how many of its files are checked. -/
def treeTitle (b : Browser) : String :=
  let name := (b.session.metadata.map (·.name)).getD "Contents"
  match b.session.tree with
  | some tree =>
    name ++ " (" ++ toString tree.checkedCount ++ "/" ++ toString tree.fileCount ++ " files)"
  | none => name

/-- What is shown in place of a tree. -/
def treePlaceholder (b : Browser) : String :=
  match b.session.state with
  | .loading => "Loading..."
  | .error => "Load failed, press r to retry"
  | _ => "No installer loaded"

/-- The panel of the tree, scrolled so that the cursor is in view. -/
def treePanel (b : Browser) : TreePanel :=
  { rows := b.rows, title := b.treeTitle, cursor := b.treeCursor
    scroll := Measure.keepInView b.treeCursor b.treeScroll b.layout.treeRows
    active := b.layout.focus == .tree, placeholder := b.treePlaceholder, theme := b.theme }

/-- The panel of the log in so many rows. -/
def logPanel (b : Browser) (height : Nat) : LogPanel :=
  { lines := b.log.feedTail height, mode := b.log.mode, count := b.log.displayedCount
    theme := b.theme }

/-- The status bar. -/
def statusBar (b : Browser) : StatusBar :=
  { state := b.session.state.label
    percent := if b.isExtracting then some b.session.progress.percent else none
    status := b.statusText
    buffered := if b.log.mode = .buffered then some b.log.displayedCount else none
    reloadNeeded := b.options.reloadNeeded
    palette := .ofTheme b.theme }

/-- The items of the command bar; those of actions that cannot be taken are disabled. -/
def commandItems (b : Browser) : List CommandBar.Item :=
  Action.commandBar.map fun i =>
    { key := i.key, label := i.label
      enabled :=
        match i.action with
        | some action => b.isEnabled action
        | none => true }

/-- The command bar. -/
def commandBar (b : Browser) : CommandBar :=
  { items := b.commandItems, palette := .ofTheme b.theme }

/-- The panel of a dialog. -/
def dialogPanel (b : Browser) (d : Dialog) : DialogPanel :=
  { dialog := d, options := b.options.live, reloadNeeded := b.options.reloadNeeded
    palette := .ofTheme b.theme }

/-- What is shown on a screen that is too small for the panels. -/
def warningPanel (b : Browser) (screen : Rect) : WarningPanel :=
  { width := screen.width, height := screen.height
    activity :=
      if b.isExtracting then
        some (b.session.state.label ++ " " ++ toString b.session.progress.percent ++ "%")
      else none
    palette := .ofTheme b.theme }

/-! ## The screen -/

/-- Draws a panel, unless it has no place. -/
def drawIn (area : Rect) (draw : Rect → Canvas → Canvas) (c : Canvas) : Canvas :=
  if area.isEmpty then c else draw area c

/-- Draws all panels. -/
def drawPanels (b : Browser) (c : Canvas) : Canvas :=
  let areas := b.layout.areas
  let c := drawIn areas.queue b.queuePanel.draw c
  let c := drawIn areas.info b.infoPanel.draw c
  let c := drawIn areas.tree b.treePanel.draw c
  let c := (b.logPanel areas.log.height).draw areas.log c
  let c := b.statusBar.draw areas.statusBar c
  let c := b.commandBar.draw areas.commandBar c
  match b.dialog with
  | some d => (b.dialogPanel d).draw c.area c
  | none => c

/-- Draws the browser on an empty screen. -/
def draw (b : Browser) (c : Canvas) : Canvas :=
  if b.layout.isTooSmall then (b.warningPanel c.area).draw c.area c else b.drawPanels c

/-- What a terminal of the size of the layout shows. -/
def frame (b : Browser) : Canvas := (b.draw (.blank b.layout.width b.layout.height)).uncovered

end InstallerBrowser.Browser
