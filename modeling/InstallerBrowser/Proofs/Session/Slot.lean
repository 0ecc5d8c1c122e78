import InstallerBrowser.Proofs.Session.Operations

/-!
# InstallerBrowser.Proofs.Session.Slot

One call at a time.

`Slot` ties the slot of a session to what its worker owes: while the worker lives, the slot holds
the kind of the one outstanding call, and nothing is outstanding while the slot is free.  Every
step keeps it (`slot_step`), also in the midst of a poll, when some events are still to be handled
(`slot_onEvents`).  `outstanding_run` reads off the call protocol for a whole run.  A property that
handling a reply keeps, as long as the reply is of the kind in the slot, survives polls
(`Stable.poll`) and with that runs (`holds_run`).
-/

namespace InstallerBrowser.Session

variable {s t : Session} {kind : CallKind} {result : Except AppError String}
  {pending events rest : List WorkerEvent}

/-! ## The worker after an event -/

@[simp] theorem worker_afterFailure (s : Session) (kind : CallKind) :
    (s.afterFailure kind).worker = s.worker := by
  cases kind <;> rfl

@[simp] theorem inFlight_afterFailure (s : Session) (kind : CallKind) :
    (s.afterFailure kind).inFlight = s.inFlight := by
  cases kind <;> rfl

/-- A reply frees the slot, and the one to a load may take it again for the list. -/
theorem worker_onReply (s : Session) (kind : CallKind) (result : Except AppError String) :
    ((s.onEvent (.reply kind result)).1.worker = s.worker ∧
        (s.onEvent (.reply kind result)).1.inFlight = none) ∨
      s.worker.alive = true ∧
        (s.onEvent (.reply kind result)).1.worker = (s.worker.send .list).1 ∧
        (s.onEvent (.reply kind result)).1.inFlight = some .list := by
  have h := replyResult s kind result
  generalize s.onEvent (.reply kind result) = r at h
  cases h with
  | faulty _ => exact .inl ⟨worker_afterFailure _ _, inFlight_afterFailure _ _⟩
  | loaded _ _ _ _ halive => exact .inr ⟨halive, rfl, rfl⟩
  | unlisted _ _ _ => exact .inl ⟨rfl, rfl⟩
  | listed _ _ _ => exact .inl ⟨rfl, rfl⟩
  | completed _ _ _ _ _ => exact .inl ⟨rfl, rfl⟩
  | uncommitted _ _ => exact .inl ⟨rfl, rfl⟩
  | aborted _ _ _ => exact .inl ⟨rfl, rfl⟩
  | undiscarded _ _ => exact .inl ⟨rfl, rfl⟩
  | answered _ => exact .inl ⟨rfl, rfl⟩

theorem worker_onEvent (s : Session) (event : WorkerEvent) :
    (s.onEvent event).1.worker = s.worker ∨
      (s.onEvent event).1.worker = (s.worker.send .list).1 := by
  cases event with
  | notice notice =>
      obtain ⟨progress, log, h, _⟩ := onNotice_cases s notice
      rw [onEvent, h]
      exact .inl rfl
  | reply kind result =>
      rcases worker_onReply s kind result with ⟨h, _⟩ | ⟨_, h, _⟩
      · exact .inl h
      · exact .inr h
  | stopped =>
      rcases onEvent_stopped_cases s with ⟨_, h⟩ | ⟨kind, _, h⟩
      · rw [h]
        exact .inl rfl
      · rw [h]
        exact .inl (worker_afterFailure _ kind)

@[simp] theorem onEvents_cons (s : Session) (event : WorkerEvent) (rest : List WorkerEvent) :
    s.onEvents (event :: rest) =
      (((s.onEvent event).1.onEvents rest).1,
        (s.onEvent event).2 ++ ((s.onEvent event).1.onEvents rest).2) := rfl

theorem onEvents_append (s : Session) (before after : List WorkerEvent) :
    s.onEvents (before ++ after) =
      (((s.onEvents before).1.onEvents after).1,
        (s.onEvents before).2 ++ ((s.onEvents before).1.onEvents after).2) := by
  induction before generalizing s with
  | nil => rfl
  | cons event rest ih =>
      rw [List.cons_append, onEvents_cons, onEvents_cons, ih, List.append_assoc]

/-- Handling events leaves the worker alive, or dead, and its own events alone. -/
theorem worker_onEvents (s : Session) (events : List WorkerEvent) :
    (s.onEvents events).1.worker.alive = s.worker.alive ∧
      (s.onEvents events).1.worker.events = s.worker.events := by
  induction events generalizing s with
  | nil => exact ⟨rfl, rfl⟩
  | cons event rest ih =>
      obtain ⟨halive, hevents⟩ := ih (s.onEvent event).1
      rw [onEvents_cons, halive, hevents]
      rcases worker_onEvent s event with h | h
      · rw [h]
        exact ⟨rfl, rfl⟩
      · rw [h]
        exact ⟨Worker.alive_send _ _, Worker.events_send _ _⟩

/-! ## The slot -/

/-- The slot of a session tells what is owed, with some polled events still to be handled. -/
structure Slot (s : Session) (pending : List WorkerEvent) : Prop where
  -- A worker that died may have left its call unanswered, so the slot can hold more than is owed.
  owed : replyKinds pending ++ s.worker.outstanding <+: s.inFlight.toList
  owed_eq : s.worker.alive = true →
    replyKinds pending ++ s.worker.outstanding = s.inFlight.toList
  unanswered_eq_nil : s.worker.alive = false → s.worker.unanswered = []
  stopped_not_mem : .stopped ∉ s.worker.events

theorem slot_new (files : FileStore) (log : Log) (dir : String) : Slot (new files log dir) [] where
  owed := List.prefix_rfl
  owed_eq := fun _ => rfl
  unanswered_eq_nil := fun _ => rfl
  stopped_not_mem := List.not_mem_nil

theorem Slot.congr (h : Slot s pending) (hworker : t.worker = s.worker)
    (hslot : t.inFlight = s.inFlight) : Slot t pending := by
  obtain ⟨h1, h2, h3, h4⟩ := h
  rw [← hworker, ← hslot] at h1 h2
  rw [← hworker] at h3 h4
  exact ⟨h1, h2, h3, h4⟩

/-- Nothing is owed while the slot is free. -/
theorem Slot.nothing_owed (h : Slot s pending) (hfree : s.inFlight = none) :
    replyKinds pending = [] ∧ s.worker.outstanding = [] := by
  have howed := h.owed
  rw [hfree, Option.toList_none, List.prefix_nil] at howed
  exact List.append_eq_nil_iff.mp howed

/-- A reply that is still to be handled is of the kind in the slot, and the last one. -/
theorem Slot.of_reply (h : Slot s (.reply kind result :: rest)) :
    s.inFlight = some kind ∧ replyKinds rest = [] ∧ s.worker.outstanding = [] := by
  have howed := h.owed
  cases hslot : s.inFlight with
  | none =>
      rw [hslot, Option.toList_none, List.prefix_nil] at howed
      cases howed
  | some kind' =>
      rw [hslot, Option.toList_some, replyKinds_reply, List.cons_append, List.cons_prefix_cons,
        List.prefix_nil, List.append_eq_nil_iff] at howed
      exact ⟨by rw [howed.1], howed.2⟩

/-- With a slot that was freed, all is as if no call had been sent. -/
theorem Slot.freed (h : Slot s pending) (hworker : t.worker = s.worker) (hfree : t.inFlight = none)
    (hrest : replyKinds rest = []) (hnone : s.worker.outstanding = []) : Slot t rest where
  owed := by
    rw [hworker, hrest, hnone]
    exact List.nil_prefix
  owed_eq := fun _ => by rw [hworker, hrest, hnone, hfree, Option.toList_none, List.append_nil]
  unanswered_eq_nil := by
    rw [hworker]
    exact h.unanswered_eq_nil
  stopped_not_mem := by
    rw [hworker]
    exact h.stopped_not_mem

/-- A call that is sent while nothing is owed is all that is owed. -/
theorem Slot.sent (h : Slot s pending) (hrest : replyKinds rest = [])
    (hnone : s.worker.outstanding = []) (halive : s.worker.alive = true) {call : EngineCall}
    (hworker : t.worker = (s.worker.send call).1) (hslot : t.inFlight = some call.kind) :
    Slot t rest := by
  have hout : replyKinds rest ++ t.worker.outstanding = t.inFlight.toList := by
    rw [hworker, Worker.outstanding_send halive, hrest, hnone, hslot]
    rfl
  refine ⟨?_, fun _ => hout, fun hdead => ?_, ?_⟩
  · exact hout ▸ List.prefix_rfl
  · rw [hworker, Worker.alive_send, halive] at hdead
    cases hdead
  · rw [hworker, Worker.events_send]
    exact h.stopped_not_mem

/-- A dead worker owes nothing more for a call that it refused. -/
theorem Slot.refused (h : Slot s pending) (hdead : s.worker.alive = false) {call : EngineCall}
    (hworker : t.worker = (s.worker.send call).1) (hslot : t.inFlight = s.inFlight) :
    Slot t pending where
  owed := by
    rw [hworker, hslot, Worker.outstanding_send_of_dead hdead]
    exact h.owed
  owed_eq := fun halive => by
    rw [hworker, Worker.alive_send, hdead] at halive
    cases halive
  unanswered_eq_nil := fun _ => by
    rw [hworker, Worker.send_of_dead hdead]
    exact h.unanswered_eq_nil hdead
  stopped_not_mem := by
    rw [hworker, Worker.events_send]
    exact h.stopped_not_mem

/-! ## Polls -/

/-- Handling an event other than the death of the worker takes it off what is to be handled. -/
theorem Slot.onEvent {event : WorkerEvent} (h : Slot s (event :: rest))
    (hevent : event ≠ .stopped) : Slot (s.onEvent event).1 rest := by
  cases event with
  | notice notice =>
      obtain ⟨progress, log, heq, _⟩ := onNotice_cases s notice
      rw [Session.onEvent, heq]
      exact ⟨h.owed, h.owed_eq, h.unanswered_eq_nil, h.stopped_not_mem⟩
  | reply kind result =>
      obtain ⟨_, hrest, hnone⟩ := h.of_reply
      rcases worker_onReply s kind result with ⟨hworker, hfree⟩ | ⟨halive, hworker, hslot⟩
      · exact h.freed hworker hfree hrest hnone
      · exact h.sent hrest hnone halive hworker hslot
  | stopped => exact absurd rfl hevent

theorem slot_onEvents (h : Slot s (events ++ rest)) (hevents : .stopped ∉ events) :
    Slot (s.onEvents events).1 rest := by
  induction events generalizing s with
  | nil => exact h
  | cons event events ih =>
      rw [List.mem_cons, not_or] at hevents
      rw [onEvents_cons]
      exact ih (h.onEvent (Ne.symm hevents.1)) hevents.2

/-- The session once the worker's events are taken, before they are handled. -/
def drained (s : Session) : Session := { s with worker := s.worker.poll.1 }

theorem poll_eq (s : Session) : s.poll = s.drained.onEvents s.worker.poll.2 := rfl

/-- Polling moves the replies from the worker to what is to be handled. -/
theorem Slot.drained (h : Slot s []) : Slot s.drained s.worker.poll.2 where
  owed := by
    rw [Session.drained, Worker.outstanding_poll]
    exact h.owed
  owed_eq := fun halive => by
    rw [Session.drained, Worker.outstanding_poll]
    exact h.owed_eq (s.worker.alive_poll.symm.trans halive)
  unanswered_eq_nil := fun hdead => by
    rw [Session.drained, Worker.unanswered_poll]
    exact h.unanswered_eq_nil (s.worker.alive_poll.symm.trans hdead)
  stopped_not_mem := by
    rw [Session.drained, Worker.events_poll]
    exact List.not_mem_nil

/-- A poll handles the events, and behind them at most the death of the worker. -/
theorem poll_cases (s : Session) :
    s.poll = s.drained.onEvents s.worker.events ∨
      s.worker.alive = false ∧
        s.poll =
          (((s.drained.onEvents s.worker.events).1.onEvent .stopped).1,
            (s.drained.onEvents s.worker.events).2 ++
              ((s.drained.onEvents s.worker.events).1.onEvent .stopped).2) := by
  rcases Worker.poll_cases s.worker with h | ⟨hdead, h⟩
  · exact .inl (by rw [poll_eq, h])
  · refine .inr ⟨hdead, ?_⟩
    rw [poll_eq, h, onEvents_append, onEvents_cons]
    simp only [onEvents, List.append_nil]

/-- What a poll handles before the death of the worker, as something to be handled. -/
theorem Slot.drained_events (h : Slot s []) : Slot s.drained (s.worker.events ++ []) := by
  have hdrained := h.drained
  rw [List.append_nil]
  rcases Worker.poll_cases s.worker with heq | ⟨_, heq⟩
  · rwa [heq] at hdrained
  · rw [heq] at hdrained
    -- The report of the death replies to nothing, so as much is owed without it.
    have hkinds : replyKinds (s.worker.events ++ [.stopped]) = replyKinds s.worker.events := by
      rw [replyKinds_append]
      exact List.append_nil _
    obtain ⟨howed, howed_eq, hdead, hstopped⟩ := hdrained
    rw [hkinds] at howed howed_eq
    exact ⟨howed, howed_eq, hdead, hstopped⟩

theorem slot_onStopped (h : Slot s []) (hdead : s.worker.alive = false)
    (hevents : s.worker.events = []) : Slot (s.onEvent .stopped).1 [] := by
  rcases onEvent_stopped_cases s with ⟨_, heq⟩ | ⟨kind, _, heq⟩
  · rw [heq]
    exact h
  · rw [heq]
    refine h.freed (worker_afterFailure _ kind) (inFlight_afterFailure _ kind) rfl ?_
    rw [Worker.outstanding, hevents, h.unanswered_eq_nil hdead]
    rfl

theorem slot_poll (h : Slot s []) : Slot s.poll.1 [] := by
  have hhandled := slot_onEvents h.drained_events h.stopped_not_mem
  rcases poll_cases s with heq | ⟨hdead, heq⟩
  · rw [heq]
    exact hhandled
  · -- The report of the death comes last, and all that was owed is handled by then.
    obtain ⟨halive, hevents⟩ := worker_onEvents s.drained s.worker.events
    rw [heq]
    refine slot_onStopped hhandled ?_ ?_
    · rw [halive]
      exact s.worker.alive_poll.trans hdead
    · rw [hevents]
      exact s.worker.events_poll

/-! ## Steps and runs -/

/-- Whatever the engine's side does, the slot tells what is owed. -/
theorem slot_act (h : Slot s []) (action : Worker.Action) :
    Slot { s with worker := s.worker.act action } [] := by
  have hacted := Worker.acted_act s.worker action
  refine ⟨hacted.outstanding_prefix.trans h.owed, fun halive => ?_,
    hacted.unanswered_eq_nil h.unanswered_eq_nil, hacted.stopped_not_mem h.stopped_not_mem⟩
  exact (hacted.outstanding_eq halive).trans (h.owed_eq (hacted.alive_before halive))

theorem slot_load (h : Slot s []) (file : String) (options : Options) :
    Slot (s.load file options).1 [] := by
  have hload := loadResult s file options
  generalize s.load file options = r at hload
  cases hload with
  | busy _ => exact h
  | locked _ _ => exact h
  | refused _ _ _ => exact h.congr rfl rfl
  | sent log hfree _ halive => exact h.sent rfl (h.nothing_owed hfree).2 halive rfl rfl

theorem slot_extract (h : Slot s []) : Slot s.extract.1 [] := by
  have hextract := extractResult s
  generalize s.extract = r at hextract
  cases hextract with
  | busy _ => exact h
  | unready _ _ => exact h
  | unopened _ _ _ => exact h.congr rfl rfl
  | refused log _ _ _ hdead => exact h.refused hdead rfl rfl
  | sent progress log hfree _ _ halive => exact h.sent rfl (h.nothing_owed hfree).2 halive rfl rfl

theorem slot_checkOptions (h : Slot s []) (options : Options) :
    Slot (s.checkOptions options).1 [] := by
  have hcheck := checkResult s options
  generalize s.checkOptions options = r at hcheck
  cases hcheck with
  | busy _ => exact h
  | refused _ _ => exact h
  | sent hfree halive => exact h.sent rfl (h.nothing_owed hfree).2 halive rfl rfl

theorem slot_abort (h : Slot s []) : Slot s.abort.1 [] := by
  rcases abort_cases s with heq | ⟨_, _, progress, log, heq⟩
  · rw [heq]
    exact h
  · rw [heq]
    exact ⟨h.owed, h.owed_eq, h.unanswered_eq_nil, h.stopped_not_mem⟩

theorem slot_shutdown (h : Slot s []) : Slot s.shutdown [] := by
  have hfired : Slot { s with worker := s.worker.abort } [] :=
    ⟨h.owed, h.owed_eq, h.unanswered_eq_nil, h.stopped_not_mem⟩
  unfold shutdown
  split
  all_goals
    simp only
    split
  · exact hfired
  · exact hfired.congr rfl rfl
  · exact h
  · exact h.congr rfl rfl

theorem slot_step (h : Slot s []) (step : Step) : Slot (s.step step) [] := by
  cases step with
  | load file options => exact slot_load h file options
  | extract => exact slot_extract h
  | abort => exact slot_abort h
  | checkOptions options => exact slot_checkOptions h options
  | selectLanguage i =>
      have hquiet := quiet_selectLanguage s i
      exact h.congr hquiet.worker hquiet.inFlight
  | discardInstaller =>
      rcases discardInstaller_cases s with ⟨e, heq⟩ | ⟨_, _, log, heq⟩
      · rw [Session.step, heq]
        exact h
      · rw [Session.step, heq]
        exact h.congr rfl rfl
  | changeTree op =>
      have hquiet := quiet_changeTree s op
      exact h.congr hquiet.worker hquiet.inFlight
  | poll => exact slot_poll h
  | shutdown => exact slot_shutdown h
  | worker action => exact slot_act h action
  | storage change => exact h.congr rfl rfl

/-- A property that every allowed step keeps holds after every run of such steps. -/
theorem holds_run {P : Session → Prop} {allowed : Step → Prop}
    (hstep : ∀ s step, allowed step → Slot s [] → P s → P (s.step step)) {steps : List Step}
    (hallowed : ∀ step ∈ steps, allowed step) (hslot : Slot s []) (hs : P s) : P (s.run steps) := by
  induction steps generalizing s with
  | nil => exact hs
  | cons step steps ih =>
      rw [List.forall_mem_cons] at hallowed
      exact ih hallowed.2 (slot_step hslot step) (hstep s step hallowed.1 hslot hs)

theorem Slot.run (h : Slot s []) (steps : List Step) : Slot (s.run steps) [] :=
  holds_run (P := fun s => Slot s []) (fun _ step _ hslot _ => slot_step hslot step)
    (fun _ _ => trivial) h h

theorem slot_run (files : FileStore) (log : Log) (dir : String) (steps : List Step) :
    Slot ((new files log dir).run steps) [] := (slot_new files log dir).run steps

/-! ## The call protocol -/

theorem load_of_busy (h : s.inFlight = some kind) (file : String) (options : Options) :
    s.load file options = (s, .error (.busy kind)) := by
  rw [load, claimSlot_of_some h]

theorem extract_of_busy (h : s.inFlight = some kind) : s.extract = (s, .error (.busy kind)) := by
  rw [extract, claimSlot_of_some h]

theorem checkOptions_of_busy (h : s.inFlight = some kind) (options : Options) :
    s.checkOptions options = (s, .error (.busy kind)) := by
  rw [checkOptions, claimSlot_of_some h]

/-- Among the events of a poll every reply was an event of the worker. -/
theorem exists_events_eq {before after : List WorkerEvent}
    (h : s.worker.poll.2 = before ++ .reply kind result :: after) :
    ∃ after', s.worker.events = before ++ .reply kind result :: after' := by
  rcases Worker.poll_cases s.worker with heq | ⟨_, heq⟩
  · exact ⟨after, heq.symm.trans h⟩
  · rw [heq] at h
    rcases List.eq_nil_or_concat after with rfl | ⟨after', event, rfl⟩
    · obtain ⟨_, hlast⟩ := List.append_inj' h rfl
      cases hlast
    · rw [List.concat_eq_append, ← List.cons_append, ← List.append_assoc] at h
      exact ⟨after', (List.append_inj' h rfl).1⟩

/-- When a reply of a poll is handled, the slot holds its kind. -/
theorem Slot.inFlight_of_reply (h : Slot s []) {before after : List WorkerEvent}
    (hpoll : s.worker.poll.2 = before ++ .reply kind result :: after) :
    (s.drained.onEvents before).1.inFlight = some kind := by
  obtain ⟨after', hevents⟩ := exists_events_eq hpoll
  have hbefore : .stopped ∉ before := fun hmem =>
    h.stopped_not_mem (hevents ▸ List.mem_append_left _ hmem)
  have hdrained := h.drained
  rw [hpoll] at hdrained
  exact (slot_onEvents hdrained hbefore).of_reply.1

/-- **One call at a time**: after any steps, while the worker lives, at most one call is
outstanding, and the slot holds exactly its kind; every reply of a poll is handled while the slot
holds its kind; and with a call under way nothing else is sent, and nothing changes. -/
theorem outstanding_run (files : FileStore) (log : Log) (dir : String) (steps : List Step) :
    let s := (new files log dir).run steps
    (s.worker.alive = true → s.worker.outstanding.length ≤ 1 ∧
        ∀ kind, s.inFlight = some kind ↔ s.worker.outstanding = [kind]) ∧
      (∀ before kind result after, s.worker.poll.2 = before ++ .reply kind result :: after →
        (s.drained.onEvents before).1.inFlight = some kind) ∧
      ∀ kind, s.inFlight = some kind → ∀ file options,
        s.load file options = (s, .error (.busy kind)) ∧
        s.extract = (s, .error (.busy kind)) ∧
        s.checkOptions options = (s, .error (.busy kind)) := by
  intro s
  have h : Slot s [] := slot_run files log dir steps
  refine ⟨fun halive => ?_, fun _ _ _ _ hpoll => h.inFlight_of_reply hpoll, fun kind hbusy file
    options => ⟨load_of_busy hbusy file options, extract_of_busy hbusy,
      checkOptions_of_busy hbusy options⟩⟩
  have howed : s.worker.outstanding = s.inFlight.toList := h.owed_eq halive
  rw [howed]
  cases s.inFlight with
  | none => exact ⟨by simp, by simp⟩
  | some kind => exact ⟨by simp, by simp⟩

/-- A live worker that answers the two calls of a load, for an installer with one file. -/
def loadSteps : List Step :=
  [ .load "setup.exe" {}
  , .worker .take, .worker (.reply (.ok "\x7b\"name\":\"Setup\"\x7d")), .poll
  , .worker .take
  , .worker (.reply (.ok "[\x7b\"node\":1,\"name\":\"a.txt\",\"fileId\":1\x7d]")), .poll ]

/-- A file system with nothing but a working directory. -/
def emptyFiles : FileStore := .empty ["work"]

/-- The reply to a load puts the list in the slot, in the same poll; until the list is answered
every other call is refused. -/
theorem outstanding_run_loadSteps :
    let s := (new emptyFiles (.new .live) "out").run (loadSteps.take 4)
    s.worker.alive = true ∧ s.inFlight = some .list ∧ s.worker.outstanding = [.list] ∧
      s.extract = (s, .error (.busy .list)) := by
  intro s
  have halive : s.worker.alive = true := by decide +kernel
  have hslot : s.inFlight = some .list := by decide +kernel
  obtain ⟨hone, _, hbusy⟩ := outstanding_run emptyFiles (.new .live) "out" (loadSteps.take 4)
  exact ⟨halive, hslot, ((hone halive).2 .list).mp hslot, (hbusy .list hslot "" {}).2.1⟩

/-! ## Properties that survive a poll -/

/-- Polling keeps a property, and so does handling an event whose reply, if it is one, is of the
kind in the slot. -/
structure Stable (P : Session → Prop) : Prop where
  drained : ∀ s, P s → P s.drained
  handled : ∀ s event, (∀ kind result, event = .reply kind result → s.inFlight = some kind) →
    P s → P (s.onEvent event).1

/-- Replies and failures are what a stable property has to keep, if it asks for neither progress nor
log. -/
theorem stable_of_replies {P : Session → Prop} (hdrained : ∀ s, P s → P s.drained)
    (hnoted : ∀ s progress log, P s → P { s with progress, log })
    (hreply : ∀ s kind result, s.inFlight = some kind → P s →
      P (s.onEvent (.reply kind result)).1)
    (hfailed : ∀ s kind, s.inFlight = some kind → P s →
      P ({ s with inFlight := none }.afterFailure kind)) : Stable P where
  drained := hdrained
  handled := by
    intro s event hslot hs
    cases event with
    | notice notice =>
        obtain ⟨progress, log, heq, _⟩ := onNotice_cases s notice
        rw [onEvent, heq]
        exact hnoted s progress log hs
    | reply kind result => exact hreply s kind result (hslot kind result rfl) hs
    | stopped =>
        rcases onEvent_stopped_cases s with ⟨_, heq⟩ | ⟨kind, hkind, heq⟩
        · rw [heq]
          exact hs
        · rw [heq]
          exact hfailed s kind hkind hs

theorem Stable.onEvents {P : Session → Prop} (hP : Stable P) (h : Slot s (events ++ rest))
    (hevents : .stopped ∉ events) (hs : P s) : P (s.onEvents events).1 := by
  induction events generalizing s with
  | nil => exact hs
  | cons event events ih =>
      rw [List.mem_cons, not_or] at hevents
      rw [onEvents_cons]
      refine ih (h.onEvent (Ne.symm hevents.1)) hevents.2 (hP.handled s event ?_ hs)
      rintro kind result rfl
      exact h.of_reply.1

theorem Stable.poll {P : Session → Prop} (hP : Stable P) (h : Slot s []) (hs : P s) :
    P s.poll.1 := by
  have hhandled := hP.onEvents h.drained_events h.stopped_not_mem (hP.drained s hs)
  rcases poll_cases s with heq | ⟨_, heq⟩
  · rw [heq]
    exact hhandled
  · rw [heq]
    exact hP.handled _ .stopped nofun hhandled

end InstallerBrowser.Session
