import InstallerBrowser.Browser.Files
import InstallerBrowser.Proofs.Log

/-!
# InstallerBrowser.Proofs.Browser.Files

What adding the files at some paths comes to.

A path leads to a file (`fileAt?`), or there is a reason why it does not (`refusal?`).  The two lists
that the paths are sorted into are told from the paths one by one (`sortPaths_eq`), so a path that
fails takes no other along, and the first failure is the first of the paths.  From them the browser
after adding is told without its intermediate states (`addFiles_of_unlocked`).
-/

namespace InstallerBrowser

variable {store : FileStore} {path : String} {paths : List String}

/-! ## Paths one by one -/

namespace FileStore

/-- Whether a path leads to a file: something is there, and it is no directory. -/
def leadsToFile (store : FileStore) (path : String) : Bool :=
  store.pathExists path && !store.isDir path

/-- The file that a path leads to, with the size of its content. -/
def fileAt? (store : FileStore) (path : String) : Option QueuedFile :=
  match store.lookup path with
  | .ok (.file content) => some { path, size := content.utf8ByteSize }
  | .ok .dir | .error _ => none

/-- Why a path leads to no file: there is a directory, or nothing can be found. -/
def refusal? (store : FileStore) (path : String) : Option AppError :=
  match store.lookup path with
  | .ok (.file _) => none
  | .ok .dir => some (.storage (.directoryQueued path))
  | .error e => some (.storage e)

/-- The paths that lead to no file, each with the reason. -/
def refusals (store : FileStore) (paths : List String) : List (String × AppError) :=
  paths.filterMap fun path => (store.refusal? path).map (path, ·)

theorem map_path_fileAt? (store : FileStore) (path : String) :
    (store.fileAt? path).map (·.path) = if store.leadsToFile path then some path else none := by
  unfold fileAt? leadsToFile pathExists isDir
  rcases store.lookup path with e | _ | content <;> rfl

theorem isSome_refusal? (store : FileStore) (path : String) :
    (store.refusal? path).isSome = !store.leadsToFile path := by
  unfold refusal? leadsToFile pathExists isDir
  rcases store.lookup path with e | _ | content <;> rfl

theorem fileAt?_path {f : QueuedFile} (h : store.fileAt? path = some f) :
    store.fileAt? f.path = some f := by
  have hpath := store.map_path_fileAt? path
  rw [h] at hpath
  split at hpath
  · have heq : f.path = path := Option.some.inj hpath
    rw [heq, h]
  · cases hpath

theorem map_path_filterMap_fileAt? (store : FileStore) (paths : List String) :
    (paths.filterMap store.fileAt?).map (·.path) = paths.filter store.leadsToFile := by
  rw [List.map_filterMap, ← List.filterMap_eq_filter]
  congr 1
  funext path
  rw [map_path_fileAt?]
  rfl

theorem map_fst_refusals (store : FileStore) (paths : List String) :
    (store.refusals paths).map (·.1) = paths.filter fun path => !store.leadsToFile path := by
  rw [refusals, List.map_filterMap, ← List.filterMap_eq_filter]
  congr 1
  funext path
  rw [Option.map_map, Option.guard, ← isSome_refusal?]
  cases store.refusal? path <;> rfl

/-- The first failure is that of the first path that fails. -/
theorem head?_refusals (store : FileStore) (paths : List String) :
    (store.refusals paths).head?.map (·.2) = paths.findSome? store.refusal? := by
  rw [refusals, List.head?_filterMap]
  induction paths with
  | nil => rfl
  | cons path rest ih =>
      rw [List.findSome?_cons, List.findSome?_cons]
      cases store.refusal? path with
      | none => exact ih
      | some e => rfl

end FileStore

namespace Browser

/-- Sorting looks at each path alone, and keeps the order. -/
theorem sortPaths_eq (store : FileStore) (paths : List String) :
    sortPaths store paths = (paths.filterMap store.fileAt?, store.refusals paths) := by
  induction paths with
  | nil => rfl
  | cons path rest ih =>
      rw [FileStore.refusals, List.filterMap_cons, List.filterMap_cons, sortPaths, ih,
        QueuedFile.ofPath, FileStore.fileAt?, FileStore.refusal?]
      rcases store.lookup path with e | _ | content <;> rfl

/-! ## What is told -/

/-- The line for a path that cannot be added. -/
def cannotAdd (failure : String × AppError) : LogLevel × String :=
  (.error, "Cannot add " ++ failure.1 ++ ": " ++ failure.2.message)

/-- What is told of files that were added: each one for those who debug, and how many they are. -/
def addedLines (added : List QueuedFile) : List (LogLevel × String) :=
  if added.isEmpty then []
  else
    added.map (fun f => (.debug, "Queued " ++ f.path ++ " (" ++ Measure.fileSize f.size ++ ")")) ++
      [(.info, "Added " ++ Measure.pluralize added.length "file" "files" ++ " to the queue")]

theorem foldl_mapLog {α : Type} (line : α → LogLevel × String) (items : List α) (b : Browser) :
    items.foldl (fun b item => b.mapLog (·.log (line item).1 (line item).2)) b =
      b.mapLog (·.logAll (items.map line)) := by
  induction items generalizing b with
  | nil => rfl
  | cons item rest ih => exact ih _

/-- Errors are logged whatever else is dropped. -/
theorem linesOf_cannotAdd (l : Log) (failures : List (String × AppError)) :
    l.linesOf (failures.map cannotAdd) = failures.map fun failure =>
      { level := .error, message := (cannotAdd failure).2, time := l.now / 1000 } := by
  have haccepts : ∀ m ∈ failures.map cannotAdd, l.accepts m.1 = true := by
    intro m hm
    obtain ⟨failure, _, rfl⟩ := List.mem_map.mp hm
    rfl
  rw [Log.linesOf, List.filter_eq_self.mpr haccepts, List.map_map]
  rfl

/-! ## What is added -/

/-- Files at the end of a queue; the selection starts anew if there are any. -/
theorem enqueue_eq (b : Browser) (files : List QueuedFile) :
    b.enqueue files = { b.mapLog (·.logAll (addedLines files)) with
      queue := if files.isEmpty then b.queue else b.queue.add files
      queueScroll := if files.isEmpty then b.queueScroll
        else min b.queueScroll ((b.queue.add files).size - 1) } := by
  unfold enqueue addedLines
  split
  · rfl
  · have hlogged := foldl_mapLog (fun f : QueuedFile =>
      (.debug, "Queued " ++ f.path ++ " (" ++ Measure.fileSize f.size ++ ")")) files b
    simp only [Log.debug, Log.logAll_append] at hlogged ⊢
    rw [hlogged]
    rfl

/-- The lines that adding logs: an error for each path that fails, then what was added. -/
def linesOfAdding (b : Browser) (paths : List String) (files : List QueuedFile) : List LogLine :=
  (b.session.files.refusals paths).map (fun failure =>
    { level := .error, message := (cannotAdd failure).2, time := b.log.now / 1000 }) ++
      b.log.linesOf (addedLines files)

theorem logAll_cannotAdd_addedLines (b : Browser) (paths : List String)
    (files : List QueuedFile) :
    (b.log.logAll ((b.session.files.refusals paths).map cannotAdd)).logAll (addedLines files) =
      b.log.withLines (b.linesOfAdding paths files) := by
  rw [Log.logAll_eq_withLines, Log.logAll_eq_withLines, Log.linesOf_withLines,
    ← Log.withLines_append, linesOf_cannotAdd]
  rfl

/-- Adding at once: the log has the lines of both loops, the queue the files, and the first failure
decides on the dialog. -/
theorem addFiles_of_unlocked {b : Browser} (hlocked : b.session.state.isLocked = false)
    (paths : List String) :
    let files := paths.filterMap b.session.files.fileAt?
    b.addFiles paths = { b.mapLog (·.withLines (b.linesOfAdding paths files)) with
      queue := if files.isEmpty then b.queue else b.queue.add files
      queueScroll := if files.isEmpty then b.queueScroll
        else min b.queueScroll ((b.queue.add files).size - 1)
      dialog := ((paths.findSome? b.session.files.refusal?).map Dialog.ofError).or b.dialog } := by
  intro files
  have hlogged : (b.session.files.refusals paths).foldl (fun b failure =>
        b.mapLog (·.error ("Cannot add " ++ failure.1 ++ ": " ++ failure.2.message))) b =
      b.mapLog (·.logAll ((b.session.files.refusals paths).map cannotAdd)) :=
    foldl_mapLog cannotAdd _ b
  have hlines : (b.mapLog (·.logAll ((b.session.files.refusals paths).map cannotAdd))).mapLog
      (·.logAll (addedLines files)) = b.mapLog (·.withLines (b.linesOfAdding paths files)) :=
    congrArg (fun log => b.mapLog fun _ => log) (b.logAll_cannotAdd_addedLines paths files)
  rw [addFiles, hlocked, if_neg Bool.false_ne_true, sortPaths_eq, ← FileStore.head?_refusals,
    ← hlines]
  simp only
  rw [hlogged, enqueue_eq]
  -- the dialog is the last to be set, so nothing else hangs on whether there is a failure
  rcases b.session.files.refusals paths with _ | ⟨failure, rest⟩ <;> rfl

end Browser

end InstallerBrowser
