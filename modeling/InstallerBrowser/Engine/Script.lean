import InstallerBrowser.Engine.Worker

/-!
# InstallerBrowser.Engine.Script

An engine that plays a script.

For each kind of call a script lists reactions: the first call of the kind gets the first one, and
so on, and the last one is used again when the list is at its end. A reaction tells some notices,
may write a file when it answers an extraction, may wait for the abort signal and then tell more,
and ends in a reply, a failure or the death of the worker. `advance` plays one call as far as it
can go.
-/

namespace InstallerBrowser

/-- How a scripted engine meets one call. -/
structure Reaction where
  notices : List EngineNotice := []
  /-- What is written to the output of an extraction. -/
  output : Option String := none
  waitsForAbort : Bool := false
  /-- What is told after the notices, and after the wait if there is one. -/
  after : List EngineNotice := []
  dies : Bool := false
  failure : Option String := none
  reply : String := "\x7b\x7d"
deriving Repr, Inhabited

/-- The reactions of an engine to calls of each kind. -/
structure EngineScript where
  load : List Reaction := []
  list : List Reaction := []
  extract : List Reaction := []
  optionsDiffer : List Reaction := []
deriving Repr, Inhabited

/-- The reactions to calls of a kind. -/
def EngineScript.reactions (s : EngineScript) : CallKind → List Reaction
  | .load => s.load
  | .list => s.list
  | .extract => s.extract
  | .optionsDiffer => s.optionsDiffer

/-- A scripted engine and what it has met. -/
structure ScriptedEngine where
  script : EngineScript := {}
  /-- The calls it was given, oldest first. -/
  met : List EngineCall := []
  /-- The reaction that waits for the abort signal. -/
  waiting : Option Reaction := none
deriving Repr, Inhabited

namespace ScriptedEngine

/-- The reaction to a call. -/
def reactionTo (e : ScriptedEngine) (call : EngineCall) : Reaction :=
  let reactions := e.script.reactions call.kind
  let earlier := (e.met.filter fun c => c.kind == call.kind).length
  match reactions[earlier]? with
  | some r => r
  | none => reactions.getLast?.getD {}

/-- Ends a call. -/
def finish (r : Reaction) (w : Worker) : Worker :=
  let w := w.notifyAll r.after
  if r.dies then w.act .die
  else
    match r.failure with
    | some message => w.act (.reply (.error (.protocol (.badReply message))))
    | none => w.act (.reply (.ok r.reply))

/-- Writes the output of an extraction; a failure is passed over. -/
def writeOutput (r : Reaction) (call : EngineCall) (store : FileStore) : FileStore :=
  match call, r.output with
  | .extract request, some text =>
    match store.write request.output text with
    | .ok store => store
    | .error _ => store
  | _, _ => store

/-- Plays the oldest call, or goes on with the one that waits. -/
def advance (e : ScriptedEngine) (w : Worker) (store : FileStore) :
    ScriptedEngine × Worker × FileStore :=
  match e.waiting with
  | some r =>
    if w.abortFired then ({ e with waiting := none }, finish r w, store) else (e, w, store)
  | none =>
    let w := w.act .take
    match w.current with
    | none => (e, w, store)
    | some call =>
      let r := e.reactionTo call
      let e := { e with met := e.met ++ [call] }
      let w := w.notifyAll r.notices
      let store := writeOutput r call store
      if r.waitsForAbort && !w.abortFired then ({ e with waiting := some r }, w, store)
      else (e, finish r w, store)

end ScriptedEngine

end InstallerBrowser
