import InstallerBrowser.Storage.FileStore

/-!
# InstallerBrowser.Queue

The files that wait to be loaded.

A queue keeps files in the order in which they were added, repetitions included, and at most one
selected file. After files are added, and after one is removed, the first installer among them is
selected; `next` and `prev` move the selection by one and stop at the ends.
-/

namespace InstallerBrowser

/-! ## Files -/

/-- A file in the queue. -/
structure QueuedFile where
  path : String
  /-- The size in bytes. -/
  size : Nat
deriving Repr, DecidableEq, Inhabited

namespace QueuedFile

/-- The name of a file: the last of its path, or the whole path if there is none. -/
def name (f : QueuedFile) : String := (Path.fileName? f.path).getD f.path

/-- The extension of an installer. -/
def installerExtension : String := "exe"

/-- Whether a file is an installer, by its extension, in capitals or not. -/
def isInstaller (f : QueuedFile) : Bool :=
  match Path.extension? f.name with
  | some ext => ext.toList.map Char.toLower == installerExtension.toList
  | none => false

/-- The file that a path leads to. -/
def ofPath (store : FileStore) (path : String) : Except StorageError QueuedFile := do
  match ← store.lookup path with
  | .dir => .error (.directoryQueued path)
  | .file content => .ok { path, size := content.utf8ByteSize }

end QueuedFile

/-! ## The queue -/

/-- The files that wait, and the number of the selected one. -/
structure FileQueue where
  files : List QueuedFile := []
  selected : Option Nat := none
deriving Repr, DecidableEq, Inhabited

namespace FileQueue

/-- How many files there are. -/
def size (q : FileQueue) : Nat := q.files.length

/-- A queue of files, of which the first installer is selected. -/
def ofFiles (files : List QueuedFile) : FileQueue :=
  { files, selected := files.findIdx? QueuedFile.isInstaller }

/-- Adds files at the end. -/
def add (q : FileQueue) (files : List QueuedFile) : FileQueue := ofFiles (q.files ++ files)

/-- Removes the file with a number. -/
def remove (q : FileQueue) (i : Nat) : FileQueue × Option QueuedFile :=
  match q.files[i]? with
  | none => (q, none)
  | some f => (ofFiles (q.files.eraseIdx i), some f)

/-- Selects the file with a number, if there is one. -/
def select (q : FileQueue) (i : Nat) : FileQueue × Bool :=
  if i < q.size then ({ q with selected := some i }, true) else (q, false)

/-- Selects the next file. -/
def next (q : FileQueue) : FileQueue :=
  if q.files.isEmpty then q
  else
    match q.selected with
    | none => { q with selected := some 0 }
    | some i => if i + 1 < q.size then { q with selected := some (i + 1) } else q

/-- Selects the previous file. -/
def prev (q : FileQueue) : FileQueue :=
  if q.files.isEmpty then q
  else
    match q.selected with
    | none => { q with selected := some 0 }
    | some i => { q with selected := some (i - 1) }

/-- The selected file. -/
def selectedFile (q : FileQueue) : Option QueuedFile := q.selected.bind fun i => q.files[i]?

/-- Whether there is a file to load. -/
def canLoad (q : FileQueue) : Bool := q.selectedFile.isSome

/-- An operation on a queue. -/
inductive Operation where
  | add (files : List QueuedFile)
  | remove (i : Nat)
  | select (i : Nat)
  | next
  | prev
deriving Repr, DecidableEq

/-- The queue after one operation. -/
def step (q : FileQueue) : Operation → FileQueue
  | .add files => q.add files
  | .remove i => (q.remove i).1
  | .select i => (q.select i).1
  | .next => q.next
  | .prev => q.prev

/-- The queue after a sequence of operations. -/
def run (q : FileQueue) (ops : List Operation) : FileQueue := ops.foldl step q

end FileQueue

end InstallerBrowser
