import InstallerBrowser.Proofs.Browser.Effects

/-!
# InstallerBrowser.Proofs.Browser.Calls

The calls that an event sends.

What is sent waits at the end of the worker's calls, so the calls that an event sends are those
that wait behind all that waited before it (`sent`).  A tick sends a call for the list, a question
on the options, or nothing; a load, an extraction and a question send the one call they are about;
nothing else sends any.
-/

namespace InstallerBrowser

namespace Worker

variable {w : Worker}

theorem calls_send_of_alive (h : w.alive = true) (call : EngineCall) :
    (w.send call).1.calls = w.calls ++ [call] := by
  rw [send_of_alive h]

theorem calls_send_of_dead (h : w.alive = false) (call : EngineCall) :
    (w.send call).1.calls = w.calls := by
  rw [send_of_dead h]

@[simp] theorem calls_poll (w : Worker) : w.poll.1.calls = w.calls := by
  unfold poll
  split <;> rfl

/-- No action of the engine's side adds a call. -/
theorem length_calls_act_le (w : Worker) (action : Action) :
    (w.act action).calls.length ≤ w.calls.length := by
  have hacted := acted_act w action
  generalize w.act action = w' at hacted
  cases hacted with
  | nothing | told _ _ | answered _ _ _ => exact Nat.le_refl _
  | took _ _ hcalls =>
      rw [hcalls]
      exact Nat.le_succ _
  | died _ => exact Nat.zero_le _

end Worker

namespace Session

variable {s : Session}

theorem calls_onEvent (s : Session) (event : WorkerEvent) : ∃ calls,
    (s.onEvent event).1.worker.calls = s.worker.calls ++ calls ∧ ∀ call ∈ calls, call = .list := by
  have hnone : ∃ calls, s.worker.calls = s.worker.calls ++ calls ∧ ∀ call ∈ calls, call = .list :=
    ⟨[], (List.append_nil _).symm, nofun⟩
  rcases worker_onEvent s event with h | h
  · rw [h]
    exact hnone
  · rw [h]
    cases halive : s.worker.alive with
    | true => exact ⟨[.list], Worker.calls_send_of_alive halive _, by simp⟩
    | false =>
        rw [Worker.calls_send_of_dead halive]
        exact hnone

/-- Handling what the worker has sent sends nothing but calls for the list. -/
theorem calls_onEvents (s : Session) (events : List WorkerEvent) : ∃ calls,
    (s.onEvents events).1.worker.calls = s.worker.calls ++ calls ∧
      ∀ call ∈ calls, call = .list := by
  induction events generalizing s with
  | nil => exact ⟨[], (List.append_nil _).symm, nofun⟩
  | cons event rest ih =>
      obtain ⟨first, hfirst, hlist⟩ := calls_onEvent s event
      obtain ⟨more, hmore, hlist'⟩ := ih (s.onEvent event).1
      refine ⟨first ++ more, ?_, ?_⟩
      · rw [onEvents_cons, hmore, hfirst, List.append_assoc]
      · exact fun call hcall => (List.mem_append.mp hcall).elim (hlist call) (hlist' call)

theorem calls_poll (s : Session) : ∃ calls,
    s.poll.1.worker.calls = s.worker.calls ++ calls ∧ ∀ call ∈ calls, call = .list := by
  obtain ⟨calls, heq, hlist⟩ := calls_onEvents s.drained s.worker.poll.2
  refine ⟨calls, ?_, hlist⟩
  rw [poll_eq, heq, drained, Worker.calls_poll]

end Session

namespace Browser

variable {b b' c c' d : Browser} {event : Event}

/-- The calls that wait in one browser behind all that wait in another. -/
def newCalls (b c : Browser) : List EngineCall :=
  c.session.worker.calls.drop b.session.worker.calls.length

/-- The calls that an event sends. -/
def sent (b : Browser) (event : Event) : List EngineCall := newCalls b (b.step event)

theorem newCalls_eq {calls : List EngineCall}
    (h : c.session.worker.calls = b.session.worker.calls ++ calls) : newCalls b c = calls := by
  rw [newCalls, h, List.drop_left]

theorem newCalls_eq_nil (h : c.session.worker.calls = b.session.worker.calls) :
    newCalls b c = [] := newCalls_eq (h.trans (List.append_nil _).symm)

theorem newCalls_congr (hbefore : b'.session.worker = b.session.worker)
    (hafter : c'.session.worker = c.session.worker) : newCalls b' c' = newCalls b c := by
  rw [newCalls, newCalls, hbefore, hafter]

theorem sent_worker (b : Browser) (action : Worker.Action) : b.sent (.worker action) = [] :=
  List.drop_eq_nil_of_le (Worker.length_calls_act_le b.session.worker action)

/-- What is only shown sends nothing, before and after an effect. -/
theorem sent_eq_of_alike (hbefore : Alike b b') (hafter : Alike c' (b.step event)) :
    b.sent event = newCalls b' c' :=
  newCalls_congr hbefore.worker.symm hafter.worker

theorem calls_polled (b : Browser) : ∃ calls,
    b.polled.session.worker.calls = b.session.worker.calls ++ calls ∧
      ∀ call ∈ calls, call.kind = .list := by
  obtain ⟨calls, hcalls, hlist⟩ := Session.calls_poll b.session
  exact ⟨calls, hcalls, fun call hcall => congrArg EngineCall.kind (hlist call hcall)⟩

/-- Of the steps that events take and add nothing to, only an extraction sends a call. -/
theorem Passed.calls {step : Session.Step} (h : Passed b step) : ∃ calls,
    (b.session.step step).worker.calls = b.session.worker.calls ++ calls ∧
      ∀ call ∈ calls, call.kind = .extract := by
  have hnone : ∃ calls, b.session.worker.calls = b.session.worker.calls ++ calls ∧
      ∀ call ∈ calls, call.kind = .extract := ⟨[], (List.append_nil _).symm, nofun⟩
  cases h with
  | extract =>
      have hextract := Session.extractResult b.session
      simp only [Session.step]
      generalize b.session.extract = r at hextract
      cases hextract with
      | busy _ | unready _ _ | unopened _ _ _ => exact hnone
      | refused log _ _ _ hdead =>
          rw [Worker.calls_send_of_dead hdead]
          exact hnone
      | sent progress log _ _ _ halive =>
          exact ⟨_, Worker.calls_send_of_alive halive _, by simp [EngineCall.kind]⟩
  | abort =>
      rcases Session.abort_cases b.session with heq | ⟨_, _, progress, log, heq⟩
      · rw [Session.step, heq]
        exact hnone
      · rw [Session.step, heq]
        exact hnone
  | changeTree op =>
      rw [Session.step, (Session.quiet_changeTree b.session op).worker]
      exact hnone
  | selectLanguage i _ =>
      rw [Session.step, (Session.quiet_selectLanguage b.session i).worker]
      exact hnone

/-- None of these steps starts or ends a question, or touches what waits to be handled. -/
theorem Passed.slot {step : Session.Step} (h : Passed b step) :
    ((b.session.step step).inFlight = some .optionsDiffer ↔
        b.session.inFlight = some .optionsDiffer) ∧
      (b.session.step step).worker.events = b.session.worker.events := by
  cases h with
  | extract =>
      have hextract := Session.extractResult b.session
      simp only [Session.step]
      generalize b.session.extract = r at hextract
      cases hextract with
      | busy _ | unready _ _ | unopened _ _ _ => exact ⟨.rfl, rfl⟩
      | refused log _ _ _ _ => exact ⟨.rfl, Worker.events_send _ _⟩
      | sent progress log hfree _ _ _ => exact ⟨by simp [hfree], Worker.events_send _ _⟩
  | abort =>
      rcases Session.abort_cases b.session with heq | ⟨_, _, progress, log, heq⟩
      · rw [Session.step, heq]
        exact ⟨.rfl, rfl⟩
      · rw [Session.step, heq]
        exact ⟨.rfl, rfl⟩
  | changeTree op =>
      have hquiet := Session.quiet_changeTree b.session op
      rw [Session.step, hquiet.inFlight, hquiet.worker]
      exact ⟨.rfl, rfl⟩
  | selectLanguage i _ =>
      have hquiet := Session.quiet_selectLanguage b.session i
      rw [Session.step, hquiet.inFlight, hquiet.worker]
      exact ⟨.rfl, rfl⟩

/-- One browser goes over into another by a question on its options. -/
structure Questioned (b c : Browser) : Prop where
  free : b.session.inFlight = none
  slot : c.session.inFlight = some .optionsDiffer
  options : c.options = b.options
  calls : c.session.worker.calls = b.session.worker.calls ++ [.optionsDiffer b.options.live]
  events : c.session.worker.events = b.session.worker.events

/-- A live worker gets the question, unless the browser has to wait. -/
theorem Asked.of_alive (h : Asked b c) (halive : b.session.worker.alive = true) :
    c = b ∧ (b.session.inFlight ≠ none ∨ b.session.state.isLocked = true) ∨ Questioned b c := by
  cases h with
  | waits hwaits => exact .inl ⟨rfl, hwaits⟩
  | sent hslot _ _ =>
      exact .inr ⟨hslot, rfl, rfl, Worker.calls_send_of_alive halive _, Worker.events_send _ _⟩
  | refused _ _ hdead => cases halive.symm.trans hdead

theorem worker_load_of_error {file : String} {options : Options} {e : AppError}
    (h : (b.session.load file options).2 = .error e) :
    (b.session.load file options).1.worker = b.session.worker ∧
      (b.session.load file options).1.inFlight = b.session.inFlight := by
  have hload := Session.loadResult b.session file options
  generalize b.session.load file options = r at hload h
  cases hload with
  | busy _ | locked _ _ | refused _ _ _ => exact ⟨rfl, rfl⟩
  | sent log _ _ _ => cases h

theorem calls_load_of_ok {file : String} {options : Options}
    (h : (b.session.load file options).2 = .ok ()) :
    (b.session.load file options).1.worker.calls =
      b.session.worker.calls ++ [.load file options] := by
  have hload := Session.loadResult b.session file options
  generalize b.session.load file options = r at hload h
  cases hload with
  | busy _ | locked _ _ | refused _ _ _ => cases h
  | sent log _ _ halive => exact Worker.calls_send_of_alive halive _

end Browser

end InstallerBrowser
