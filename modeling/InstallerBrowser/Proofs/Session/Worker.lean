import InstallerBrowser.Engine.Worker

/-!
# InstallerBrowser.Proofs.Session.Worker

The calls that a worker still owes.

A call is outstanding from the moment it is sent until its reply is polled: it waits, it is under
way, or its reply lies among the events.  `Worker.outstanding` lists the kinds of these calls,
oldest first.  Sending adds one at the end (`outstanding_send`), polling takes the replies off the
front (`outstanding_poll`), and while the worker lives no action of the engine's side changes the
list (`Acted.outstanding_eq`).
-/

namespace InstallerBrowser

/-- The kind of the call that an event replies to. -/
def WorkerEvent.replyKind? : WorkerEvent → Option CallKind
  | .reply kind _ => some kind
  | .notice _ | .stopped => none

/-- The kinds of the calls that some events reply to. -/
def replyKinds (events : List WorkerEvent) : List CallKind :=
  events.filterMap WorkerEvent.replyKind?

@[simp] theorem replyKinds_nil : replyKinds [] = [] := rfl

@[simp] theorem replyKinds_notice (notice : EngineNotice) (rest : List WorkerEvent) :
    replyKinds (.notice notice :: rest) = replyKinds rest := rfl

@[simp] theorem replyKinds_reply (kind : CallKind) (result : Except AppError String)
    (rest : List WorkerEvent) : replyKinds (.reply kind result :: rest) = kind :: replyKinds rest :=
  rfl

@[simp] theorem replyKinds_append (before after : List WorkerEvent) :
    replyKinds (before ++ after) = replyKinds before ++ replyKinds after :=
  List.filterMap_append

namespace Worker

variable {w : Worker}

/-- The kinds of the calls without a reply: of the one under way, and of those that wait. -/
def unanswered (w : Worker) : List CallKind := (w.current.toList ++ w.calls).map EngineCall.kind

/-- The kinds of the calls that were sent and whose replies were not polled, oldest first. -/
def outstanding (w : Worker) : List CallKind := replyKinds w.events ++ w.unanswered

/-! ## The side of the session -/

theorem send_of_alive (h : w.alive = true) (call : EngineCall) :
    w.send call =
      ({ w with abortFired := w.abortAfterSend call, calls := w.calls ++ [call] }, .ok ()) := by
  simp only [send, h, if_true]

theorem send_of_dead (h : w.alive = false) (call : EngineCall) :
    w.send call =
      ({ w with abortFired := w.abortAfterSend call }, .error (.protocol .workerStopped)) := by
  simp [send, h]

/-- A dead worker is not changed by a call, unless that lowers the abort signal. -/
theorem send_fst_of_dead (h : w.alive = false) {call : EngineCall} (hkind : call.kind ≠ .extract) :
    (w.send call).1 = w := by
  have hsignal : w.abortAfterSend call = w.abortFired := by
    rw [abortAfterSend, bne_iff_ne.mpr hkind, Bool.and_true]
  rw [send_of_dead h, hsignal]

/-- What a worker accepts is outstanding behind all else. -/
theorem outstanding_send (h : w.alive = true) (call : EngineCall) :
    (w.send call).1.outstanding = w.outstanding ++ [call.kind] := by
  rw [send_of_alive h]
  simp [outstanding, unanswered]

theorem outstanding_send_of_dead (h : w.alive = false) (call : EngineCall) :
    (w.send call).1.outstanding = w.outstanding := by
  rw [send_of_dead h]
  rfl

@[simp] theorem alive_send (w : Worker) (call : EngineCall) :
    (w.send call).1.alive = w.alive := by
  cases h : w.alive with
  | true => rw [send_of_alive h, ← h]
  | false => rw [send_of_dead h, ← h]

@[simp] theorem events_send (w : Worker) (call : EngineCall) :
    (w.send call).1.events = w.events := by
  cases h : w.alive with
  | true => rw [send_of_alive h]
  | false => rw [send_of_dead h]

theorem deathReported_send (w : Worker) (call : EngineCall) :
    (w.send call).1.deathReported = w.deathReported := by
  cases halive : w.alive with
  | true => rw [send_of_alive halive]
  | false => rw [send_of_dead halive]

@[simp] theorem alive_poll (w : Worker) : w.poll.1.alive = w.alive := by
  unfold poll
  split <;> rfl

@[simp] theorem events_poll (w : Worker) : w.poll.1.events = [] := by
  unfold poll
  split <;> rfl

@[simp] theorem unanswered_poll (w : Worker) : w.poll.1.unanswered = w.unanswered := by
  unfold poll
  split <;> rfl

/-- A poll answers with the events, and behind them tells at most that the worker is dead. -/
theorem poll_cases (w : Worker) :
    w.poll.2 = w.events ∨ w.alive = false ∧ w.poll.2 = w.events ++ [.stopped] := by
  unfold poll
  split
  · exact .inl rfl
  · next h =>
      rw [Bool.or_eq_true, not_or, Bool.not_eq_true, Bool.not_eq_true] at h
      exact .inr ⟨h.1, rfl⟩

/-- A poll takes the replies off the front. -/
theorem outstanding_poll (w : Worker) :
    replyKinds w.poll.2 ++ w.poll.1.outstanding = w.outstanding := by
  have hkinds : replyKinds w.poll.2 = replyKinds w.events := by
    rcases poll_cases w with h | ⟨_, h⟩
    · rw [h]
    · rw [h, replyKinds_append]
      exact List.append_nil _
  rw [hkinds, outstanding, events_poll, unanswered_poll]
  rfl

/-! ## The side of the engine -/

/-- What an action can do. -/
inductive Acted (w : Worker) : Worker → Prop
  | nothing : Acted w w
  | took {call rest} : w.alive = true → w.current = none → w.calls = call :: rest →
      Acted w { w with calls := rest, current := some call }
  | told (notice) : w.alive = true → Acted w { w with events := w.events ++ [.notice notice] }
  | answered {call} (result) : w.alive = true → w.current = some call →
      Acted w { w with events := w.events ++ [.reply call.kind result], current := none }
  | died : w.alive = true → Acted w { w with alive := false, current := none, calls := [] }

theorem acted_act (w : Worker) (action : Action) : Acted w (w.act action) := by
  unfold act
  split
  · next h =>
      split
      · next hcurrent hcalls => exact .took h hcurrent hcalls
      · exact .told _ h
      · next hcurrent => exact .answered _ h hcurrent
      · exact .died h
      · exact .nothing
  · exact .nothing

variable {w' : Worker}

/-- No action brings a dead worker back. -/
theorem Acted.alive_before (h : Acted w w') (halive : w'.alive = true) : w.alive = true := by
  cases h with
  | nothing => exact halive
  | took h' _ _ => exact h'
  | told _ h' => exact h'
  | answered _ h' _ => exact h'
  | died h' => exact h'

/-- While the worker lives, what is outstanding stays so: a call is taken, and answered, in turn. -/
theorem Acted.outstanding_eq (h : Acted w w') (halive : w'.alive = true) :
    w'.outstanding = w.outstanding := by
  cases h with
  | nothing => rfl
  | took _ hcurrent hcalls => simp [outstanding, unanswered, hcurrent, hcalls]
  | told notice _ => simp [outstanding, unanswered]
  | answered result _ hcurrent => simp [outstanding, unanswered, hcurrent]
  | died _ => cases halive

/-- A worker that dies forgets the calls without a reply, and nothing else. -/
theorem Acted.outstanding_prefix (h : Acted w w') : w'.outstanding <+: w.outstanding := by
  cases halive : w'.alive with
  | true =>
      exact h.outstanding_eq halive ▸ List.prefix_rfl
  | false =>
      cases h with
      | nothing => exact List.prefix_rfl
      | took h' => exact absurd (h'.symm.trans halive) nofun
      | told notice h' => exact absurd (h'.symm.trans halive) nofun
      | answered result h' => exact absurd (h'.symm.trans halive) nofun
      | died _ => simp [outstanding, unanswered]

/-- A dead worker has no calls, if that holds before. -/
theorem Acted.unanswered_eq_nil (h : Acted w w') (hw : w.alive = false → w.unanswered = [])
    (hdead : w'.alive = false) : w'.unanswered = [] := by
  cases h with
  | nothing => exact hw hdead
  | took h' => exact absurd (h'.symm.trans hdead) nofun
  | told notice h' => exact absurd (h'.symm.trans hdead) nofun
  | answered result h' => exact absurd (h'.symm.trans hdead) nofun
  | died _ => rfl

/-- No action reports that the worker is dead: a poll does. -/
theorem Acted.stopped_not_mem (h : Acted w w') (hw : .stopped ∉ w.events) :
    .stopped ∉ w'.events := by
  cases h with
  | nothing => exact hw
  | took _ _ _ => exact hw
  | told notice _ => simpa using hw
  | answered result _ _ => simpa using hw
  | died _ => exact hw

end Worker

end InstallerBrowser
