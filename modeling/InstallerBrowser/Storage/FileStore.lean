import InstallerBrowser.Storage.Path

/-!
# InstallerBrowser.Storage.FileStore

A file system as a value.

A `FileStore` maps places, lists of names from the root, to text files and directories. A path
is resolved name by name from the working directory or the root; every name but the last has to
lead to a directory. Each operation answers with the changed store or with a `StorageError`, and
leaves every place alone that it does not name (`get?_put_of_ne`, `get?_erase_of_ne`).
-/

namespace InstallerBrowser

/-! ## Errors -/

/-- Why a file operation fails. -/
inductive StorageError where
  | notFound
  | alreadyExists
  | notADirectory
  | isADirectory
  | notEmpty
  | nameTooLong
  | nulInPath
  | nulInCommand
  | permissionDenied
  | brokenPipe
  /-- A line that is not UTF-8. -/
  | invalidText
  /-- A directory given where a file has to be queued. -/
  | directoryQueued (path : String)
deriving Repr, DecidableEq

/-- The wording of an error. -/
def StorageError.message : StorageError → String
  | .notFound => "No such file or directory (os error 2)"
  | .alreadyExists => "File exists (os error 17)"
  | .notADirectory => "Not a directory (os error 20)"
  | .isADirectory => "Is a directory (os error 21)"
  | .notEmpty => "Directory not empty (os error 39)"
  | .nameTooLong => "File name too long (os error 36)"
  | .nulInPath => "file name contained an unexpected NUL byte"
  | .nulInCommand => "nul byte found in provided data"
  | .permissionDenied => "Permission denied (os error 13)"
  | .brokenPipe => "Broken pipe (os error 32)"
  | .invalidText => "stream did not contain valid UTF-8"
  | .directoryQueued path => path ++ " is a directory"

/-! ## The store -/

/-- The names that lead to a place, from the root. -/
abbrev Place := List String

/-- What is at a place. -/
inductive FileEntry where
  | file (content : String)
  | dir
deriving Repr, DecidableEq

/-- The files and directories below the root, and the working directory. -/
structure FileStore where
  entries : List (Place × FileEntry)
  workingDir : Place
deriving Repr, Inhabited

namespace FileStore

/-- A store with nothing but the directories that lead to the working directory. -/
def empty (workingDir : Place) : FileStore :=
  { entries := (List.range workingDir.length).map fun i => (workingDir.take (i + 1), .dir)
    workingDir }

/-- The entry of a place. -/
def findEntry (place : Place) : List (Place × FileEntry) → Option FileEntry
  | [] => none
  | (p, entry) :: rest => if p = place then some entry else findEntry place rest

/-- What is at a place; the root is a directory. -/
def get? (store : FileStore) (place : Place) : Option FileEntry :=
  if place = [] then some .dir else findEntry place store.entries

/-- The store with an entry at a place. -/
def put (store : FileStore) (place : Place) (entry : FileEntry) : FileStore :=
  { store with entries := (place, entry) :: store.entries.filter fun e => e.1 != place }

/-- The store without the entry at a place. -/
def erase (store : FileStore) (place : Place) : FileStore :=
  { store with entries := store.entries.filter fun e => e.1 != place }

/-- The store without a place and all that is below it. -/
def eraseTree (store : FileStore) (place : Place) : FileStore :=
  { store with entries := store.entries.filter fun e => !place.isPrefixOf e.1 }

/-- Leaving entries out does not change a place whose entries stay. -/
theorem findEntry_filter {place : Place} {keep : Place × FileEntry → Bool}
    (h : ∀ entry, keep (place, entry) = true) (entries : List (Place × FileEntry)) :
    findEntry place (entries.filter keep) = findEntry place entries := by
  induction entries with
  | nil => rfl
  | cons e rest ih =>
    obtain ⟨p, entry⟩ := e
    by_cases hp : p = place
    · subst hp
      simp [h, findEntry]
    · by_cases hk : keep (p, entry) = true
      · simp [hk, findEntry, hp, ih]
      · simp [hk, findEntry, hp, ih]

theorem get?_put_self (store : FileStore) (place : Place) (entry : FileEntry)
    (h : place ≠ []) : (store.put place entry).get? place = some entry := by
  simp [get?, put, findEntry, h]

theorem get?_put_of_ne (store : FileStore) {place other : Place} (entry : FileEntry)
    (h : other ≠ place) : (store.put place entry).get? other = store.get? other := by
  simp only [get?, put, findEntry, Ne.symm h, if_false]
  rw [findEntry_filter (by simp [h])]

theorem get?_erase_of_ne (store : FileStore) {place other : Place}
    (h : other ≠ place) : (store.erase place).get? other = store.get? other := by
  simp only [get?, erase]
  rw [findEntry_filter (by simp [h])]

/-! ## Resolving a path -/

/-- The longest name, in bytes. -/
def maxName : Nat := 255

/-- Follows names from a directory. The last name may lead nowhere; the ones before it have to
lead to directories. -/
def follow (store : FileStore) : Place → List String → Except StorageError Place
  | place, [] => .ok place
  | place, name :: rest =>
    if name = "." ∨ name = "" then
      match store.get? place with
      | some .dir => follow store place rest
      | some (.file _) => .error .notADirectory
      | none => .error .notFound
    else
      match store.get? place with
      | none => .error .notFound
      | some (.file _) => .error .notADirectory
      | some .dir =>
        if name.utf8ByteSize > maxName then .error .nameTooLong
        else if name = ".." then follow store place.dropLast rest
        else follow store (place ++ [name]) rest

/-- The place that a path leads to, which may hold nothing. -/
def resolve (store : FileStore) (path : String) : Except StorageError Place :=
  if path = "" then .error .notFound
  else if path.toList.contains (Char.ofNat 0) then .error .nulInPath
  else
    let names := (Text.splitOn '/' path.toList).map String.ofList
    store.follow (if Path.isAbsolute path then [] else store.workingDir) names

/-- What a path leads to. -/
def lookup (store : FileStore) (path : String) : Except StorageError FileEntry := do
  let place ← store.resolve path
  match store.get? place with
  | some entry => .ok entry
  | none => .error .notFound

/-- Whether a path leads to a file or a directory. -/
def pathExists (store : FileStore) (path : String) : Bool := (store.lookup path).isOk

/-- Whether a path leads to a directory. -/
def isDir (store : FileStore) (path : String) : Bool :=
  match store.lookup path with
  | .ok .dir => true
  | _ => false

/-- Whether the directory that holds a place is there. -/
def checkParent (store : FileStore) (place : Place) : Except StorageError Unit :=
  match store.get? place.dropLast with
  | some .dir => .ok ()
  | some (.file _) => .error .notADirectory
  | none => .error .notFound

/-! ## Reading -/

/-- The content of a file. -/
def read (store : FileStore) (path : String) : Except StorageError String := do
  match ← store.lookup path with
  | .file content => .ok content
  | .dir => .error .isADirectory

/-! ## Changing -/

/-- Whether a path ends in a slash, and so asks for a directory. -/
def asksForDir (path : String) : Bool := path.toList.getLast? == some '/'

/-- A path without the slashes at its end. -/
def withoutSlash (path : String) : String :=
  String.ofList (path.toList.reverse.dropWhile (· == '/')).reverse

/-- The place where a path makes a new entry: a slash at its end is left out, unless it is the
root's. -/
def resolveNew (store : FileStore) (path : String) : Except StorageError Place :=
  if asksForDir path then
    if withoutSlash path = "" then .ok [] else store.resolve (withoutSlash path)
  else store.resolve path

/-- Writes a file, in place of one that is there. -/
def write (store : FileStore) (path content : String) : Except StorageError FileStore := do
  let place ← store.resolveNew path
  match store.get? place, asksForDir path with
  | some .dir, _ => .error .isADirectory
  | some (.file _), true => .error .notADirectory
  | some (.file _), false => .ok (store.put place (.file content))
  | none, true => do
    store.checkParent place
    .error .isADirectory
  | none, false => do
    store.checkParent place
    .ok (store.put place (.file content))

/-- Makes one directory. -/
def makeDir (store : FileStore) (path : String) : Except StorageError FileStore := do
  let place ← store.resolveNew path
  match store.get? place with
  | some _ => .error .alreadyExists
  | none => do
    store.checkParent place
    .ok (store.put place .dir)

/-- The parents of a path, nearest first, as many as there are names. -/
def parents (path : String) : List String := go (Path.significant path).length path
where
  go : Nat → String → List String
    | 0, _ => []
    | n + 1, path =>
      match Path.parent? path with
      | none => []
      | some parent => parent :: go n parent

/-- Makes a directory whose parent is there, unless it is there itself. -/
def ensureDir (store : FileStore) (path : String) : FileStore × Except StorageError Unit :=
  match store.makeDir path with
  | .ok store => (store, .ok ())
  | .error e => (store, if store.isDir path then .ok () else .error e)

/-- Makes a directory and the directories that lead to it, those that are missing. Where one cannot
be made, the ones that were made before it stay. -/
def growDirs (store : FileStore) (path : String) : FileStore × Except StorageError Unit :=
  go store ((path :: parents path).length) path
where
  go (store : FileStore) : Nat → String → FileStore × Except StorageError Unit
    | 0, _ => (store, .ok ())
    | n + 1, path =>
      if path = "" then (store, .ok ())
      else
        match store.makeDir path with
        | .ok store => (store, .ok ())
        | .error .notFound =>
          match Path.parent? path with
          | none => (store, .error .notFound)
          | some parent =>
            match go store n parent with
            | (store, .error e) => (store, .error e)
            | (store, .ok ()) => store.ensureDir path
        | .error e => (store, if store.isDir path then .ok () else .error e)

/-- A store with a directory and the directories that lead to it, if all of them can be made. -/
def makeDirs (store : FileStore) (path : String) : Except StorageError FileStore :=
  match store.growDirs path with
  | (store, .ok ()) => .ok store
  | (_, .error e) => .error e

/-- Removes a file. -/
def removeFile (store : FileStore) (path : String) : Except StorageError FileStore := do
  let place ← store.resolve path
  match store.get? place with
  | none => .error .notFound
  | some .dir => .error .isADirectory
  | some (.file _) => .ok (store.erase place)

/-- The places directly or deeper below a directory. -/
def below (store : FileStore) (place : Place) : List (Place × FileEntry) :=
  store.entries.filter fun e => place.isPrefixOf e.1 && e.1 != place

/-- Moves a directory and all that is below it. -/
def moveTree (store : FileStore) (source target : Place) : FileStore :=
  let moved := store.entries.filterMap fun e =>
    if source.isPrefixOf e.1 then some (target ++ e.1.drop source.length, e.2) else none
  { store with
    entries := moved ++ ((store.eraseTree source).eraseTree target).entries }

/-- Gives a file or a directory another name, in place of a file or an empty directory there. -/
def rename (store : FileStore) (source target : String) : Except StorageError FileStore := do
  let src ← store.resolve source
  let dst ← store.resolveNew target
  match store.get? src with
  | none => .error .notFound
  | some (.file content) => do
    store.checkParent dst
    match store.get? dst with
    | some .dir => .error .isADirectory
    | _ => .ok ((store.erase src).put dst (.file content))
  | some .dir => do
    store.checkParent dst
    match store.get? dst with
    | some (.file _) => .error .notADirectory
    | some .dir =>
      if src = dst then .ok store
      else if (store.below dst).isEmpty then .ok (store.moveTree src dst)
      else .error .notEmpty
    | none => .ok (store.moveTree src dst)

/-- Removes a file, or a directory and all that is below it. -/
def removeTree (store : FileStore) (path : String) : Except StorageError FileStore := do
  let place ← store.resolve path
  match store.get? place with
  | none => .error .notFound
  | some (.file _) => .ok (store.erase place)
  | some .dir => .ok (store.eraseTree place)

/-! ## Listing -/

/-- The names in a directory, in order. -/
def names (store : FileStore) (place : Place) : List String :=
  let direct := store.entries.filter fun e => e.1.dropLast == place && e.1 != []
  (direct.filterMap fun e => e.1.getLast?).mergeSort fun a b => decide (a ≤ b)

/-- All that is below a directory, each directory followed by its content, with the path of the
directory in front of every name. The bound is the number of entries. -/
def listTree (store : FileStore) (path : String) : List (String × FileEntry) :=
  match store.resolve path with
  | .error _ => []
  | .ok place => go (store.entries.length + 1) place path
where
  go : Nat → Place → String → List (String × FileEntry)
    | 0, _, _ => []
    | n + 1, place, path =>
      (store.names place).flatMap fun name =>
        let inner := place ++ [name]
        let shown := Path.join path name
        match store.get? inner with
        | some (.file content) => [(shown, .file content)]
        | some .dir => (shown, .dir) :: go n inner shown
        | none => []

end FileStore

end InstallerBrowser
