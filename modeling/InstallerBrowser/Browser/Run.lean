import InstallerBrowser.Browser.Actions
import InstallerBrowser.Session.Run

/-!
# InstallerBrowser.Browser.Run

Runs of the browser.

A tick handles what the engine has sent, puts a question on the options that had to wait, and
refreshes the badge of the log. `Browser.step` is one thing that can happen, `Browser.run` a
sequence of them.
-/

namespace InstallerBrowser.Browser

/-- Handles an event of the session. -/
def onEvent (b : Browser) : SessionEvent → Browser
  | .status _ | .progress _ => b
  | .loaded name entries =>
    { b with treeCursor := 0, treeScroll := 0, layout := b.layout.setFocus .tree }.showToast
      ("Loaded " ++ name ++ " (" ++ toString entries ++ " entries)")
  | .extracted (some path) status =>
    b.openDialog (.message "Extraction Complete" (status ++ "\n\n" ++ path))
  | .extracted none status => b.showToast status
  | .aborted status => b.showToast status
  | .optionsDiffer differ =>
    let b := { b with options := b.options.applyDriftAnswer differ }
    if differ then b.showToast "Options changed: reload the installer to apply" else b
  | .failed e => b.reportError e

/-- Handles all that the engine has sent. -/
def poll (b : Browser) : Browser :=
  let (session, events) := b.session.poll
  events.foldl onEvent { b with session }

/-- What is done regularly. -/
def tick (b : Browser) : Browser :=
  let b := b.poll
  let b := if b.driftCheckPending then b.requestDriftCheck else b
  b.mapLog fun log => (log.refreshCounter false).1

/-- Fits the panels to a screen. -/
def resize (b : Browser) (screen : Rect) : Browser := { b with layout := b.layout.update screen }

/-- What can happen to a browser. -/
inductive Event where
  | key (key : KeyPress)
  | paste (text : String)
  | action (action : Action)
  | addFiles (paths : List String)
  | toggleOption (field : OptionField)
  | resetOptions
  | abortExtraction
  | resize (screen : Rect)
  | tick
  /-- The engine's side of the worker does something. -/
  | worker (action : Worker.Action)
  /-- The files are changed from outside. -/
  | files (store : FileStore)

/-- The browser after one event. -/
def step (b : Browser) : Event → Browser
  | .key k => b.key k
  | .paste text => b.paste text
  | .action action => b.execute action
  | .addFiles paths => b.addFiles paths
  | .toggleOption f => b.toggleOption f
  | .resetOptions => b.resetOptions
  | .abortExtraction => b.abortExtraction
  | .resize screen => b.resize screen
  | .tick => b.tick
  | .worker action => { b with session := b.session.step (.worker action) }
  | .files store => { b with session := { b.session with files := store } }

/-- The browser after a sequence of events. -/
def run (b : Browser) (events : List Event) : Browser := events.foldl step b

/-- One turn of the main loop: a screen, an event if there is one, and a tick. -/
def turn (b : Browser) (screen : Rect) (event : Option Event) : Browser :=
  let b := b.resize screen
  match event with
  | some event => (b.step event).tick
  | none => b.tick

/-! ## Scripted engines -/

/-- One answer of a scripted engine, as far as it gets, and a tick. -/
def playTick (b : Browser) (engine : ScriptedEngine) : Browser × ScriptedEngine :=
  let (session, engine) := b.session.playCall engine
  ({ b with session }.tick, engine)

/-- Answers of a scripted engine while a call is under way, at most so many. -/
def playWhileBusy : Nat → Browser → ScriptedEngine → Browser × ScriptedEngine
  | 0, b, engine => (b, engine)
  | n + 1, b, engine =>
    if b.session.isBusy then
      let (b, engine) := b.playTick engine
      playWhileBusy n b engine
    else (b, engine)

end InstallerBrowser.Browser
