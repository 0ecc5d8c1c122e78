import InstallerBrowser.Browser.Files
import InstallerBrowser.Browser.Run
import InstallerBrowser.Browser.View
import InstallerBrowser.CommandLine
import InstallerBrowser.Screen.Transcript

/-!
# InstallerBrowser.Main

The program.

It reads its arguments and its settings and looks for its engine. If it ends there, it says why;
otherwise it shows the first screen.
-/

namespace InstallerBrowser.Main

/-- The working directory, as a place. -/
def workingDir : Place := ["work"]

/-- A store with a text at a path. -/
def putText (store : FileStore) (path text : String) : FileStore :=
  match OutputSink.makeParent store path with
  | .error _ => store
  | .ok store => (store.write path text).toOption.getD store

/-- A store with a settings file from the disk in it. -/
def addSettings (store : FileStore) (path : String) : IO FileStore := do
  try
    return putText store path (← IO.FS.readFile path)
  catch e =>
    match e with
    | .noFileOrDirectory .. => return store
    | _ => return (store.makeDirs path).toOption.getD store

/-- A text of as many bytes as a file has; what is not ASCII is replaced. -/
def textOfBytes (bytes : ByteArray) : String :=
  String.ofList (bytes.toList.map fun b => if b < 128 then Char.ofNat b.toNat else '?')

/-- A store with an installer from the disk in it. -/
def addInstaller (store : FileStore) (path : String) : IO FileStore := do
  try
    return putText store path (textOfBytes (← IO.FS.readBinFile path))
  catch e =>
    match e with
    | .noFileOrDirectory .. => return store
    | _ => return (store.makeDirs path).toOption.getD store

/-- Whether there is something at a path. -/
def isPresent (path : String) : IO Bool := do
  try
    let _ ← IO.FS.Handle.mk path .read
    return true
  catch _ => return false

/-- The program of a command line, if it is on the disk. -/
def installedFor (commandLine : String) : IO (List String) := do
  match Text.splitWords commandLine with
  | some (program :: _) =>
    let searched := (← IO.getEnv "PATH").getD ""
    let dirs := if program.toList.contains '/' then [""] else searched.splitOn ":"
    if ← dirs.anyM fun dir => isPresent (Path.join dir program) then return [program]
    else return []
  | _ => return []

/-- The surroundings of the program. -/
def environment : IO Config.Environment := do
  return { home := (← IO.getEnv "HOME").getD "", configPath := ← IO.getEnv "INNODIR_CONFIG" }

/-- Prints what a program says at its end. -/
def report (e : Arguments.Exit) : IO UInt32 := do
  IO.print e.stdout
  IO.eprint e.stderr
  return e.code.toUInt32

/-- The first screen of a browser. -/
def firstScreen (b : Browser) : List String :=
  (b.resize { width := 80, height := 24 }).frame.texts

/-- Runs the program. -/
def run (texts : List String) : IO UInt32 := do
  let env ← environment
  let path := ((Arguments.parse texts).toOption.bind (·.config)).getD (Config.defaultPath env)
  let store ← addSettings (FileStore.empty workingDir) path
  match Arguments.settings env store texts with
  | .error e => report e
  | .ok (c, _) =>
    match Arguments.start (← installedFor (c.engineCommand.getD "")) env store texts with
    | .error e => report e
    | .ok (c, files) =>
      let store ← files.foldlM addInstaller store
      let b := (Browser.new c env "." store).addFiles files
      for line in firstScreen b do
        IO.println line
      return 0

end InstallerBrowser.Main

/-- The program. -/
def main (texts : List String) : IO UInt32 := InstallerBrowser.Main.run texts
