import InstallerBrowser.Storage.FileStore
import InstallerBrowser.Text.Blank

/-!
# InstallerBrowser.Storage.Output

Where an extraction is written.

An engine writes to a staging file beside the file that is to be made. `commit` gives it its
final name, `discard` and `abandon` remove it. `nextOutputPath` finds the first name of a series
that is free.
-/

namespace InstallerBrowser

/-! ## Staging -/

/-- A file that is being made. -/
structure OutputSink where
  finalPath : String
deriving Repr, DecidableEq, Inhabited

namespace OutputSink

/-- What is put behind the name of a file while it is being made. -/
def stagingSuffix : String := ".part"

/-- The path that is written to. -/
def stagingPath (sink : OutputSink) : String := sink.finalPath ++ stagingSuffix

/-- Removes a file, if it is there. -/
def removeIfPresent (store : FileStore) (path : String) : Except StorageError FileStore :=
  match store.removeFile path with
  | .ok store => .ok store
  | .error .notFound => .ok store
  | .error e => .error e

/-- Makes the directory that holds a path, as far as it can be made. -/
def growParent (store : FileStore) (path : String) : FileStore × Except StorageError Unit :=
  match Path.parent? path with
  | none => (store, .ok ())
  | some parent => if parent = "" then (store, .ok ()) else store.growDirs parent

/-- A store with the directory that holds a path, if it can be made. -/
def makeParent (store : FileStore) (path : String) : Except StorageError FileStore :=
  match growParent store path with
  | (store, .ok ()) => .ok store
  | (_, .error e) => .error e

/-- Starts to make a file: the directories that lead to it are made, and a staging file that was
left behind is removed. -/
def «open» (store : FileStore) (finalPath : String) :
    FileStore × Except StorageError OutputSink :=
  match growParent store finalPath with
  | (store, .error e) => (store, .error e)
  | (store, .ok ()) =>
    let sink : OutputSink := { finalPath }
    match removeIfPresent store sink.stagingPath with
    | .error e => (store, .error e)
    | .ok store => (store, .ok sink)

/-- Gives up a file without a word. -/
def abandon (sink : OutputSink) (store : FileStore) : FileStore :=
  match store.removeFile sink.stagingPath with
  | .ok store => store
  | .error _ => store

/-- Gives the staging file its final name, and answers with the path; there is none if nothing
was written. A staging file that cannot be renamed is removed. -/
def commit (sink : OutputSink) (store : FileStore) :
    FileStore × Except StorageError (Option String) :=
  if store.pathExists sink.stagingPath then
    match store.rename sink.stagingPath sink.finalPath with
    | .ok store => (store, .ok (some sink.finalPath))
    | .error e => (sink.abandon store, .error e)
  else (store, .ok none)

/-- Removes the staging file. -/
def discard (sink : OutputSink) (store : FileStore) : FileStore × Except StorageError Unit :=
  match removeIfPresent store sink.stagingPath with
  | .ok store => (store, .ok ())
  | .error e => (store, .error e)

end OutputSink

/-! ## Names -/

/-- The name of an output without its extension: that of the installer, unless it is blank. -/
def outputStem (installer : String) : String :=
  match Path.fileStem? installer with
  | some stem => if Text.isBlankText stem then "extracted" else stem
  | none => "extracted"

/-- The names of a series: the first has no number. -/
def outputName (stem : String) (i : Nat) : String :=
  if i = 0 then stem ++ ".zip" else stem ++ "_(" ++ toString i ++ ").zip"

/-- The first number from `i` on, among `bound` and the one behind them, whose path is free. -/
def firstFree (store : FileStore) (candidate : Nat → String) : Nat → Nat → Nat
  | 0, i => i
  | bound + 1, i =>
    if store.pathExists (candidate i) then firstFree store candidate bound (i + 1) else i

/-- The first path of the series for an installer that nothing has yet. Every path that is taken
takes an entry of the store, so there are no more of them than entries. -/
def nextOutputPath (store : FileStore) (dir installer : String) : String :=
  let candidate (i : Nat) : String := Path.join dir (outputName (outputStem installer) i)
  candidate (firstFree store candidate (store.entries.length + 1) 0)

end InstallerBrowser
