import InstallerBrowser.Browser.Basic
import InstallerBrowser.Measure
import InstallerBrowser.Text.Words

/-!
# InstallerBrowser.Browser.Files

Adding files to the queue and removing them.

Of several paths those that lead to files are added, in their order; each of the others is logged,
and the first of them is shown. A file that is removed takes the installer that was loaded from it
along, unless it is in the queue another time.
-/

namespace InstallerBrowser.Browser

/-- Keeps the scroll position of the queue inside of it. -/
def clampQueueScroll (b : Browser) : Browser :=
  { b with queueScroll := min b.queueScroll (b.queue.size - 1) }

/-! ## Adding -/

/-- The paths that lead to files, and the errors for the others. -/
def sortPaths (store : FileStore) : List String → List QueuedFile × List (String × AppError)
  | [] => ([], [])
  | path :: rest =>
    let (files, failures) := sortPaths store rest
    match QueuedFile.ofPath store path with
    | .ok f => (f :: files, failures)
    | .error e => (files, (path, .storage e) :: failures)

/-- Puts files at the end of the queue. -/
def enqueue (b : Browser) (files : List QueuedFile) : Browser :=
  if files.isEmpty then b
  else
    let b := files.foldl (fun b f =>
      b.mapLog (·.debug ("Queued " ++ f.path ++ " (" ++ Measure.fileSize f.size ++ ")"))) b
    let b := { b with queue := b.queue.add files }
    (b.mapLog (·.info ("Added " ++ Measure.pluralize files.length "file" "files" ++
      " to the queue"))).clampQueueScroll

/-- Adds the files that some paths lead to. -/
def addFiles (b : Browser) (paths : List String) : Browser :=
  if b.session.state.isLocked then b.tellLocked "Queue is locked"
  else
    let (files, failures) := sortPaths b.session.files paths
    let b := failures.foldl (fun b (path, e) =>
      b.mapLog (·.error ("Cannot add " ++ path ++ ": " ++ e.message))) b
    let b := b.enqueue files
    match failures with
    | [] => b
    | (_, e) :: _ => b.openDialog (.ofError e)

/-- A path in which a tilde at the front stands for the home directory. -/
def expandHome (home path : String) : String :=
  match path.toList with
  | ['~'] => home
  | '~' :: '/' :: rest => Path.join home (String.ofList rest)
  | _ => path

/-- The paths in a line of text: its words, or the line as it is if it has none. -/
def pathsOfLine (home line : String) : List String :=
  let line := Text.trim line
  if line.isEmpty then []
  else ((Text.splitWords line).getD [line]).map (expandHome home)

/-- Adds the files named in a line of text; a blank line does nothing. -/
def addLine (b : Browser) (line : String) : Browser :=
  if Text.isBlankText line then b else b.addFiles (pathsOfLine b.home line)

/-- The directory of the selected file, with a slash behind it. -/
def selectedDir (b : Browser) : String :=
  match b.queue.selectedFile.bind fun f => Path.parent? f.path with
  | some dir => if dir.isEmpty then "" else dir ++ "/"
  | none => ""

/-- Asks for a file to add. -/
def askForFile (b : Browser) : Browser :=
  if b.session.state.isLocked then b.tellLocked "Queue is locked"
  else b.openDialog (.addFile b.selectedDir)

/-! ## Removing -/

/-- Whether a path is that of the installer that is loaded. -/
def isLoaded (b : Browser) (path : String) : Bool :=
  match b.session.loadedFile with
  | some loaded => Path.same loaded path
  | none => false

/-- Whether a path is in the queue. -/
def isQueued (b : Browser) (path : String) : Bool :=
  b.queue.files.any fun f => Path.same f.path path

/-- Gives up the installer, and goes back to the queue. -/
def discardInstaller (b : Browser) : Browser :=
  match b.session.discardInstaller with
  | (session, .ok ()) =>
    { b with session, treeCursor := 0, treeScroll := 0, layout := b.layout.setFocus .queue }
  | (session, .error e) => { b with session }.reportError e

/-- Removes the selected file from the queue. -/
def removeSelected (b : Browser) : Browser :=
  if b.session.state.isLocked then b.tellLocked "Queue is locked"
  else
    match b.queue.selected with
    | none => b
    | some i =>
      match b.queue.remove i with
      | (_, none) => b
      | (queue, some f) =>
        let b := { b with queue }.mapLog (·.info ("Removed " ++ f.name ++ " from the queue"))
        (if b.isLoaded f.path && !b.isQueued f.path then b.discardInstaller
          else b).clampQueueScroll

end InstallerBrowser.Browser
