import InstallerBrowser.Error
import InstallerBrowser.Log

/-!
# InstallerBrowser.Engine.Worker

The worker that owns an engine.

A worker takes calls from a queue, one at a time, and puts events into another: notices while a
call is under way, and one reply at its end. The session sends calls and polls events. The abort
signal goes past both queues: firing it can be seen by the call that is under way, and sending an
extraction lowers it again. A worker that dies takes no more calls; a poll that finds its events
used up reports the death once.
-/

namespace InstallerBrowser

/-! ## Events -/

/-- What an engine tells while it works. -/
inductive EngineNotice where
  | status (text : String)
  | progress (percent : Nat)
  | log (level : LogLevel) (message : String)
deriving Repr, DecidableEq, Inhabited

/-- A notice of progress; more than everything counts as everything. -/
def EngineNotice.ofPercent (percent : Nat) : EngineNotice := .progress (min percent 100)

/-- What a worker sends to the session. -/
inductive WorkerEvent where
  | notice (notice : EngineNotice)
  | reply (kind : CallKind) (result : Except AppError String)
  /-- The worker has died. -/
  | stopped
deriving Repr

/-! ## The worker -/

/-- A worker and its two queues. -/
structure Worker where
  /-- The calls that wait, oldest first. -/
  calls : List EngineCall := []
  /-- The call that is under way. -/
  current : Option EngineCall := none
  /-- The events that were not polled, oldest first. -/
  events : List WorkerEvent := []
  alive : Bool := true
  abortFired : Bool := false
  /-- Whether a poll has reported the death. -/
  deathReported : Bool := false
deriving Repr, Inhabited

namespace Worker

/-! ### The side of the session -/

/-- The abort signal after a call was sent: an extraction lowers it. -/
def abortAfterSend (w : Worker) (call : EngineCall) : Bool :=
  w.abortFired && call.kind != .extract

/-- Sends a call; a dead worker refuses it. -/
def send (w : Worker) (call : EngineCall) : Worker × Except AppError Unit :=
  let w := { w with abortFired := w.abortAfterSend call }
  if w.alive then ({ w with calls := w.calls ++ [call] }, .ok ())
  else (w, .error (.protocol .workerStopped))

/-- Takes all events. The death of the worker is the last one, and is reported once. -/
def poll (w : Worker) : Worker × List WorkerEvent :=
  if w.alive || w.deathReported then ({ w with events := [] }, w.events)
  else ({ w with events := [], deathReported := true }, w.events ++ [.stopped])

/-- Fires the abort signal. -/
def abort (w : Worker) : Worker := { w with abortFired := true }

/-! ### The side of the engine -/

/-- What the engine's side of a worker does next. -/
inductive Action where
  /-- It takes the oldest call. -/
  | take
  /-- It tells something about the call that is under way. -/
  | notify (notice : EngineNotice)
  /-- It answers the call that is under way. -/
  | reply (result : Except AppError String)
  /-- It dies. -/
  | die
deriving Repr

/-- The worker after its engine's side did something; what it cannot do changes nothing. -/
def act (w : Worker) (action : Action) : Worker :=
  if w.alive then
    match action, w.current, w.calls with
    | .take, none, call :: rest => { w with calls := rest, current := some call }
    | .notify notice, some _, _ => { w with events := w.events ++ [.notice notice] }
    | .reply result, some call, _ =>
      { w with events := w.events ++ [.reply call.kind result], current := none }
    | .die, _, _ => { w with alive := false, current := none, calls := [] }
    | _, _, _ => w
  else w

/-- Tells several things. -/
def notifyAll (w : Worker) (notices : List EngineNotice) : Worker :=
  notices.foldl (fun w n => w.act (.notify n)) w

end Worker

end InstallerBrowser
