import InstallerBrowser.Proofs.Browser.Calls

/-!
# InstallerBrowser.Proofs.Browser.Answers

The engine's answers on the options, on their way to the browser.

An answer waits among the events of the worker until a tick polls them, and the options keep the
answers in their order (`options_polled`).  As a session asks one question at a time, a poll gets
one answer at most, and only to the question in the slot (`Session.slotPolled`).
-/

namespace InstallerBrowser

/-! ## Answers -/

/-- What a reply says on the options; nothing if it cannot be read. -/
def readAnswer : Except AppError String → Option Bool
  | .error _ => none
  | .ok raw => (Reply.parseOptionsDiffer raw).toOption

/-- The answer on the options that an event of the worker carries. -/
def WorkerEvent.answer? : WorkerEvent → Option (Option Bool)
  | .reply .optionsDiffer result => some (readAnswer result)
  | .reply _ _ | .notice _ | .stopped => none

/-- The answers on the options among some events. -/
def answersAmong (events : List WorkerEvent) : List (Option Bool) :=
  events.filterMap WorkerEvent.answer?

/-- The options with an answer kept, if it could be read. -/
def OptionsState.hear (o : OptionsState) : Option Bool → OptionsState
  | some differ => o.applyDriftAnswer differ
  | none => o

theorem answersAmong_append (before after : List WorkerEvent) :
    answersAmong (before ++ after) = answersAmong before ++ answersAmong after :=
  List.filterMap_append

theorem answersAmong_eq_nil {events : List WorkerEvent} (h : .optionsDiffer ∉ replyKinds events) :
    answersAmong events = [] := by
  rw [answersAmong, List.filterMap_eq_nil_iff]
  intro event hevent
  cases event with
  | notice notice => rfl
  | stopped => rfl
  | reply kind result =>
      cases kind with
      | load | list | extract => rfl
      | optionsDiffer =>
          have hmem : .optionsDiffer ∈ replyKinds events := by
            rw [replyKinds, List.mem_filterMap]
            exact ⟨_, hevent, rfl⟩
          exact absurd hmem h

/-- The report of the death answers nothing. -/
theorem answersAmong_poll (w : Worker) : answersAmong w.poll.2 = answersAmong w.events := by
  rcases w.poll_cases with h | ⟨_, h⟩
  · rw [h]
  · rw [h, answersAmong_append]
    exact List.append_nil _

/-- Events with one reply: it has none before it and none behind it. -/
theorem exists_reply_of_replyKinds {kind : CallKind} {events : List WorkerEvent}
    (h : replyKinds events = [kind]) : ∃ before result after,
      events = before ++ .reply kind result :: after ∧ replyKinds before = [] ∧
        replyKinds after = [] := by
  rw [replyKinds, List.filterMap_eq_cons_iff] at h
  obtain ⟨before, event, after, rfl, hbefore, hevent, hafter⟩ := h
  cases event with
  | reply kind' result =>
      cases hevent
      exact ⟨before, result, after, rfl, List.filterMap_eq_nil_iff.mpr hbefore, hafter⟩
  | notice notice => cases hevent
  | stopped => cases hevent

namespace Session

variable {s : Session} {events : List WorkerEvent}

/-- Handling an event tells the answer that it carries, and no other. -/
theorem heed_onEvent (s : Session) (o : OptionsState) (event : WorkerEvent) :
    Browser.heed o (s.onEvent event).2 = event.answer?.elim o o.hear := by
  cases event with
  | notice notice =>
      obtain ⟨_, _, _, htold⟩ := onNotice_cases s notice
      rw [onEvent]
      rcases htold with ⟨text, h⟩ | ⟨percent, h⟩ | h
      · rw [h]
        rfl
      · rw [h]
        rfl
      · rw [h]
        rfl
  | stopped =>
      rcases onEvent_stopped_cases s with ⟨_, h⟩ | ⟨kind, _, h⟩
      · rw [h]
        rfl
      · rw [h]
        rfl
  | reply kind result =>
      have hreply := replyResult s kind result
      generalize s.onEvent (.reply kind result) = r at hreply
      cases hreply with
      | faulty hfault =>
          cases hfault with
          | error kind e => cases kind <;> rfl
          | load _ | list _ | tree _ _ | extract _ => rfl
          | optionsDiffer hparse => simp [Browser.heed, WorkerEvent.answer?, readAnswer, hparse,
              Except.toOption, OptionsState.hear]
      | answered hparse => simp [Browser.heed, WorkerEvent.answer?, readAnswer, hparse,
          Except.toOption, OptionsState.hear]
      | loaded _ _ _ _ _ | unlisted _ _ _ | listed _ _ _ | completed _ _ _ _ _ | uncommitted _ _
      | aborted _ _ _ | undiscarded _ _ => rfl

theorem heed_append (o : OptionsState) (before after : List SessionEvent) :
    Browser.heed o (before ++ after) = Browser.heed (Browser.heed o before) after :=
  List.foldl_append

theorem heed_onEvents (s : Session) (o : OptionsState) (events : List WorkerEvent) :
    Browser.heed o (s.onEvents events).2 = (answersAmong events).foldl OptionsState.hear o := by
  induction events generalizing s o with
  | nil => rfl
  | cons event rest ih =>
      rw [onEvents_cons, heed_append, heed_onEvent, ih]
      simp only [answersAmong, List.filterMap_cons]
      cases event.answer? with
      | none => rfl
      | some answer => rfl

/-! ## Polls -/

theorem inFlight_onEvents_of_noReply (s : Session) (hnone : replyKinds events = [])
    (hstopped : .stopped ∉ events) : (s.onEvents events).1.inFlight = s.inFlight := by
  induction events generalizing s with
  | nil => rfl
  | cons event rest ih =>
      rw [List.mem_cons, not_or] at hstopped
      cases event with
      | reply kind result => cases hnone
      | stopped => exact absurd rfl hstopped.1
      | notice notice =>
          obtain ⟨progress, log, heq, _⟩ := onNotice_cases s notice
          rw [onEvents_cons, ih _ hnone hstopped.2, onEvent, heq]

theorem inFlight_onReply_optionsDiffer (s : Session) (result : Except AppError String) :
    (s.onEvent (.reply .optionsDiffer result)).1.inFlight = none := by
  have hreply := replyResult s .optionsDiffer result
  generalize s.onEvent (.reply .optionsDiffer result) = r at hreply
  cases hreply with
  | faulty _ | answered _ => rfl

/-- No reply is followed by a question on the options. -/
theorem inFlight_onReply_ne (s : Session) (kind : CallKind) (result : Except AppError String) :
    (s.onEvent (.reply kind result)).1.inFlight ≠ some .optionsDiffer := by
  rcases worker_onReply s kind result with ⟨_, h⟩ | ⟨_, _, h⟩
  · rw [h]
    exact nofun
  · rw [h]
    exact nofun

/-- What a poll comes to for the slot and the answers, while the worker lives. -/
inductive SlotPolled (s : Session) : Prop
  | silent : answersAmong s.worker.events = [] → s.poll.1.inFlight = s.inFlight → SlotPolled s
  | other : s.inFlight ≠ some .optionsDiffer → answersAmong s.worker.events = [] →
      s.poll.1.inFlight ≠ some .optionsDiffer → SlotPolled s
  | answered (answer) : s.inFlight = some .optionsDiffer →
      answersAmong s.worker.events = [answer] → s.poll.1.inFlight = none → SlotPolled s

theorem poll_of_alive (halive : s.worker.alive = true) :
    s.poll = s.drained.onEvents s.worker.events := by
  rcases poll_cases s with h | ⟨hdead, _⟩
  · exact h
  · cases halive.symm.trans hdead

/-- The replies that wait are one at most, of the kind in the slot. -/
theorem Slot.of_replyKinds_cons (h : Slot s []) (halive : s.worker.alive = true) {kind : CallKind}
    {rest : List CallKind} (hkinds : replyKinds s.worker.events = kind :: rest) :
    s.inFlight = some kind ∧ rest = [] := by
  have howed : replyKinds s.worker.events ++ s.worker.unanswered = s.inFlight.toList :=
    h.owed_eq halive
  rw [hkinds] at howed
  cases hslot : s.inFlight with
  | none =>
      rw [hslot] at howed
      cases howed
  | some kind' =>
      rw [hslot, Option.toList_some, List.cons_append, List.cons.injEq,
        List.append_eq_nil_iff] at howed
      exact ⟨congrArg some howed.1.symm, howed.2.1⟩

theorem slotPolled (h : Slot s []) (halive : s.worker.alive = true) : SlotPolled s := by
  cases hkinds : replyKinds s.worker.events with
  | nil =>
      refine .silent (answersAmong_eq_nil (by simp [hkinds])) ?_
      rw [poll_of_alive halive, inFlight_onEvents_of_noReply _ hkinds h.stopped_not_mem]
      rfl
  | cons kind rest =>
      obtain ⟨hflight, rfl⟩ := h.of_replyKinds_cons halive hkinds
      obtain ⟨before, result, after, hevents, hbefore, hafter⟩ := exists_reply_of_replyKinds hkinds
      have hstopped : .stopped ∉ after := fun hmem =>
        h.stopped_not_mem (by rw [hevents]; simp [hmem])
      have hpolled : s.poll.1.inFlight =
          ((s.drained.onEvents before).1.onEvent (.reply kind result)).1.inFlight := by
        rw [poll_of_alive halive, hevents, onEvents_append, onEvents_cons,
          inFlight_onEvents_of_noReply _ hafter hstopped]
      have hanswers : answersAmong s.worker.events =
          (WorkerEvent.reply kind result).answer?.toList := by
        have hafter' := answersAmong_eq_nil (hafter.symm ▸ List.not_mem_nil)
        rw [hevents, answersAmong_append, answersAmong_eq_nil (hbefore.symm ▸ List.not_mem_nil),
          List.nil_append, answersAmong, List.filterMap_cons]
        cases (WorkerEvent.reply kind result).answer? with
        | none => exact hafter'
        | some answer => exact congrArg (answer :: ·) hafter'
      cases kind with
      | optionsDiffer =>
          exact .answered _ hflight hanswers
            (hpolled.trans (inFlight_onReply_optionsDiffer _ result))
      | load | list | extract =>
          exact .other (by simp [hflight]) hanswers (hpolled ▸ inFlight_onReply_ne _ _ result)

/-- No poll sends a question on the options. -/
theorem stable_noQuestion : Stable fun s => s.inFlight ≠ some .optionsDiffer :=
  stable_of_replies (fun _ h => h) (fun _ _ _ h => h)
    (fun s kind result _ _ => inFlight_onReply_ne s kind result)
    fun _ kind _ _ => by simp

/-- Without a question under way no answer waits. -/
theorem Slot.answersAmong_eq_nil (h : Slot s []) (hslot : s.inFlight ≠ some .optionsDiffer) :
    answersAmong s.worker.events = [] := by
  refine InstallerBrowser.answersAmong_eq_nil fun hmem => hslot ?_
  have howed : s.worker.outstanding <+: s.inFlight.toList := h.owed
  exact Option.mem_toList.mp (howed.subset (List.mem_append_left _ hmem))

end Session

namespace Browser

variable {b : Browser}

/-! ## Ticks -/

theorem options_polled (b : Browser) :
    b.polled.options =
      (answersAmong b.session.worker.events).foldl OptionsState.hear b.options := by
  simp only [polled]
  rw [Session.poll_eq, Session.heed_onEvents, answersAmong_poll]

theorem events_polled (b : Browser) : b.polled.session.worker.events = [] := by
  simp only [polled]
  rw [Session.poll_eq, (Session.worker_onEvents _ _).2]
  exact Worker.events_poll _

theorem alive_polled (b : Browser) :
    b.polled.session.worker.alive = b.session.worker.alive := by
  simp only [polled]
  rw [Session.poll_eq, (Session.worker_onEvents _ _).1]
  exact Worker.alive_poll _

/-! ## The engine's side -/

/-- The reply that an event gives to a question on the options. -/
def answered? (b : Browser) : Event → Option (Except AppError String)
  | .worker (.reply result) =>
    match b.session.worker.alive, b.session.worker.current with
    | true, some (.optionsDiffer _) => some result
    | _, _ => none
  | _ => none

/-- An action that is no reply to a question leaves the answers that wait. -/
theorem answersAmong_act_of_none {action : Worker.Action}
    (h : b.answered? (.worker action) = none) :
    answersAmong (b.session.worker.act action).events = answersAmong b.session.worker.events := by
  cases halive : b.session.worker.alive with
  | false => simp [Worker.act, halive]
  | true =>
      cases action with
      | take =>
          simp only [Worker.act, halive, if_true]
          cases b.session.worker.current <;> cases b.session.worker.calls <;> rfl
      | die => simp [Worker.act, halive]
      | notify notice =>
          simp only [Worker.act, halive, if_true]
          cases b.session.worker.current with
          | none => rfl
          | some call => simp [answersAmong, WorkerEvent.answer?]
      | reply result =>
          simp only [Worker.act, halive, if_true]
          cases hcurrent : b.session.worker.current with
          | none => rfl
          | some call =>
              cases call with
              | optionsDiffer o => simp [answered?, halive, hcurrent] at h
              | load _ _ | list | extract _ =>
                  simp [answersAmong, WorkerEvent.answer?, EngineCall.kind]

/-- A reply to a question is outstanding before, and waits behind the other answers then. -/
theorem answersAmong_act_of_some {action : Worker.Action} {result : Except AppError String}
    (h : b.answered? (.worker action) = some result) :
    .optionsDiffer ∈ b.session.worker.outstanding ∧
      answersAmong (b.session.worker.act action).events =
        answersAmong b.session.worker.events ++ [readAnswer result] := by
  cases action with
  | take | die | notify _ => cases h
  | reply result' =>
      simp only [answered?] at h
      split at h
      · next halive hcurrent =>
          cases h
          refine ⟨?_, ?_⟩
          · simp [Worker.outstanding, Worker.unanswered, hcurrent, EngineCall.kind]
          · simp [Worker.act, halive, hcurrent, answersAmong, WorkerEvent.answer?, EngineCall.kind]
      · cases h

end Browser

end InstallerBrowser
