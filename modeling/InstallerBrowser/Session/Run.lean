import InstallerBrowser.Engine.Script
import InstallerBrowser.Session.Basic

/-!
# InstallerBrowser.Session.Run

Runs of a session.

A run interleaves the operations of a session with the actions of its worker and with changes that
others make to the files. `Session.step` is one of these, `Session.run` a sequence of them.
`playCall` lets a scripted engine answer what is under way, `playStep` polls after that, and
`playWhileBusy` repeats it.
-/

namespace InstallerBrowser.Session

/-- What can happen to a session. -/
inductive Step where
  | load (file : String) (options : Options)
  | extract
  | abort
  | checkOptions (options : Options)
  | selectLanguage (i : Nat)
  | discardInstaller
  /-- Marks or open nodes of the tree are changed; the marks only where they may be. -/
  | changeTree (op : SelectionTree.Operation)
  | poll
  | shutdown
  /-- The engine's side of the worker does something. -/
  | worker (action : Worker.Action)
  /-- The engine, or another program, changes the files. -/
  | storage (change : FileStore → FileStore)

/-- Whether an operation on a tree only opens or closes nodes. -/
def onlyOpens : SelectionTree.Operation → Bool
  | .expand _ | .collapse _ | .toggleExpanded _ => true
  | .check _ | .uncheck _ | .toggle _ | .checkAll | .uncheckAll => false

/-- Changes the tree, as far as the operation is allowed. -/
def changeTree (s : Session) (op : SelectionTree.Operation) : Session :=
  match if onlyOpens op then s.tree else s.editableTree with
  | none => s
  | some tree => s.setTree (tree.step op)

/-- The session after one step. -/
def step (s : Session) : Step → Session
  | .load file options => (s.load file options).1
  | .extract => s.extract.1
  | .abort => s.abort.1
  | .checkOptions options => (s.checkOptions options).1
  | .selectLanguage i => (s.selectLanguage i).1
  | .discardInstaller => s.discardInstaller.1
  | .changeTree op => s.changeTree op
  | .poll => s.poll.1
  | .shutdown => s.shutdown
  | .worker action => { s with worker := s.worker.act action }
  | .storage change => { s with files := change s.files }

/-- The session after a sequence of steps. -/
def run (s : Session) (steps : List Step) : Session := steps.foldl step s

/-- Lets a scripted engine go on with the call that is under way. -/
def playCall (s : Session) (engine : ScriptedEngine) : Session × ScriptedEngine :=
  let (engine, worker, files) := engine.advance s.worker s.files
  ({ s with worker, files }, engine)

/-- One answer of a scripted engine, as far as it gets, and a poll. -/
def playStep (s : Session) (engine : ScriptedEngine) :
    Session × ScriptedEngine × List SessionEvent :=
  let (s, engine) := s.playCall engine
  let (s, events) := s.poll
  (s, engine, events)

/-- Answers of a scripted engine while a call is under way, at most so many. -/
def playWhileBusy : Nat → Session → ScriptedEngine →
    Session × ScriptedEngine × List SessionEvent
  | 0, s, engine => (s, engine, [])
  | n + 1, s, engine =>
    if s.isBusy then
      let (s, engine, events) := s.playStep engine
      let (s, engine, more) := playWhileBusy n s engine
      (s, engine, events ++ more)
    else (s, engine, [])

end InstallerBrowser.Session
