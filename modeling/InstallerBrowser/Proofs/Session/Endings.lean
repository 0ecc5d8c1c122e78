import InstallerBrowser.Proofs.Session.Moments

/-!
# InstallerBrowser.Proofs.Session.Endings

Every operation ends once.

An operation is under way from the call that starts it to the end that is told of it; a load goes
on with the list.  `Course` lists what handling some events makes of it: nothing, the step from the
load to the list, or its end.  Courses compose (`Course.append`), because a slot that was freed stays
free, so that a poll tells one end at most (`Slot.course_poll`).  That a poll tells it once the worker
has answered or has died needs that a death is told while the call is still under way (`Reported`).
`record` is what a caller sees of a run, the calls that start operations and the ends that polls
tell, and `record_paired` reads it as a sequence of operations.
-/

namespace InstallerBrowser

/-- The kind of the call with which an operation starts, from that of its last call. -/
def CallKind.opening : CallKind → CallKind
  | .load | .list => .load
  | .extract => .extract
  | .optionsDiffer => .optionsDiffer

namespace Session

variable {s : Session} {events before after : List WorkerEvent}

/-- The kind of the operation that is under way. -/
def underWay (s : Session) : Option CallKind := s.inFlight.map CallKind.opening

/-- The ends of calls among what was told. -/
def ends (told : List SessionEvent) : List SessionEvent := told.filter SessionEvent.endsCall

@[simp] theorem ends_append (told told' : List SessionEvent) :
    ends (told ++ told') = ends told ++ ends told' := List.filter_append _ _

/-! ## The course of an operation -/

/-- What handling some events makes of the operation under way. -/
inductive Course (s : Session) (events : List WorkerEvent) : Prop
  | idle : (∀ event ∈ events, Idle s event) → (s.onEvents events).1.inFlight = s.inFlight →
      ends (s.onEvents events).2 = [] → Course s events
  /-- A load was answered, and goes on with the list. -/
  | listing {before raw metadata after} : s.inFlight = some .load → s.worker.alive = true →
      events = before ++ .reply .load (.ok raw) :: after → Reply.parseLoad raw = .ok metadata →
      (s.onEvents events).1.inFlight = some .list → ends (s.onEvents events).2 = [] →
      Course s events
  /-- The last call of the operation was answered, or the worker has died. -/
  | ended {before event after kind told} : s.underWay = some kind.opening →
      events = before ++ event :: after → (s.onEvents before).1.inFlight = some kind →
      event = .stopped ∨ (∃ result, event = .reply kind result) → Ends kind told →
      (s.onEvents events).1.inFlight = none → ends (s.onEvents events).2 = [told] →
      Course s events

theorem onEvents_singleton (s : Session) (event : WorkerEvent) :
    s.onEvents [event] = s.onEvent event := by
  simp only [onEvents, List.append_nil]

theorem ends_of_endsCall {told : SessionEvent} (h : told.endsCall = true) : ends [told] = [told] :=
  List.filter_cons_of_pos h

theorem course_onEvent {event : WorkerEvent}
    (hreply : ∀ kind result, event = .reply kind result → s.inFlight = some kind) :
    Course s [event] := by
  have hturn := turn_onEvent hreply
  generalize hr : s.onEvent event = r at hturn
  rw [← onEvents_singleton] at hr
  cases hturn with
  | idle hidle hkept htold =>
      refine .idle (List.forall_mem_singleton.mpr hidle) ?_ ?_
      · rw [hr]
        exact hkept
      · rw [hr]
        exact htold
  | listing hslot halive hparse hlist =>
      refine .listing hslot halive (List.nil_append _).symm hparse ?_ ?_
      · rw [hr]
        exact hlist
      · rw [hr]
        rfl
  | @replied kind result _ _ hslot hfree hends =>
      refine .ended ?_ (List.nil_append [_]).symm hslot (.inr ⟨result, rfl⟩) hends ?_ ?_
      · rw [underWay, hslot, Option.map_some]
      · rw [hr]
        exact hfree
      · rw [hr]
        exact ends_of_endsCall hends.endsCall
  | @stopped kind _ e hslot hfree =>
      refine .ended ?_ (List.nil_append [_]).symm hslot (.inl rfl) (.failed kind e) ?_ ?_
      · rw [underWay, hslot, Option.map_some]
      · rw [hr]
        exact hfree
      · rw [hr]
        rfl

theorem idle_congr {t : Session} {event : WorkerEvent} (h : t.inFlight = s.inFlight)
    (hidle : Idle t event) : Idle s event := by
  rw [Idle, h] at hidle
  exact hidle

/-- What comes after some events goes on where they have left the operation. -/
theorem Course.append (h : Course s before) (h' : Course (s.onEvents before).1 after) :
    Course s (before ++ after) := by
  have hnext : (s.onEvents (before ++ after)).1.inFlight =
      ((s.onEvents before).1.onEvents after).1.inFlight := by rw [onEvents_append]
  have hall : ends (s.onEvents (before ++ after)).2 =
      ends (s.onEvents before).2 ++ ends ((s.onEvents before).1.onEvents after).2 := by
    rw [onEvents_append, ends_append]
  cases h with
  | idle hidle hkept hnone =>
      rw [hnone, List.nil_append] at hall
      cases h' with
      | idle hidle' hkept' hnone' =>
          refine .idle ?_ (hnext.trans (hkept'.trans hkept)) (hall.trans hnone')
          rw [List.forall_mem_append]
          exact ⟨hidle, fun event hmem => idle_congr hkept (hidle' event hmem)⟩
      | listing hslot halive hevents hparse hlist hnone' =>
          refine .listing (hkept.symm.trans hslot) ?_ (by rw [hevents, ← List.append_assoc]) hparse
            (hnext.trans hlist) (hall.trans hnone')
          rw [← halive, (worker_onEvents s before).1]
      | ended hunder hevents hslot hlast hends hfree htold =>
          refine .ended ?_ (by rw [hevents, ← List.append_assoc]) ?_ hlast hends
            (hnext.trans hfree) (hall.trans htold)
          · rw [← hunder, underWay, underWay, hkept]
          · rw [onEvents_append]
            exact hslot
  | listing hslot halive hevents hparse hlist hnone =>
      rw [hnone, List.nil_append] at hall
      cases h' with
      | idle _ hkept' hnone' =>
          exact .listing hslot halive (by rw [hevents, List.append_assoc, List.cons_append]) hparse
            (hnext.trans (hkept'.trans hlist)) (hall.trans hnone')
      | listing hslot' _ _ _ _ _ => cases hlist.symm.trans hslot'
      | ended hunder hevents' hslot' hlast hends hfree htold =>
          refine .ended ?_ (by rw [hevents', ← List.append_assoc]) ?_ hlast hends
            (hnext.trans hfree) (hall.trans htold)
          · -- The operation is the same: a load, of which the list is a part.
            rw [← hunder, underWay, underWay, hslot, hlist]
            rfl
          · rw [onEvents_append]
            exact hslot'
  | ended hunder hevents hslot hlast hends hfree htold =>
      cases h' with
      | idle _ hkept' hnone' =>
          refine .ended hunder (by rw [hevents, List.append_assoc, List.cons_append]) hslot hlast hends
            (hnext.trans (hkept'.trans hfree)) ?_
          rw [hall, htold, hnone', List.append_nil]
      | listing hslot' _ _ _ _ _ => cases hfree.symm.trans hslot'
      | ended hunder' _ _ _ _ _ _ =>
          rw [underWay, hfree] at hunder'
          cases hunder'

theorem Slot.course_onEvents {rest : List WorkerEvent} (h : Slot s (events ++ rest))
    (hevents : .stopped ∉ events) : Course s events := by
  induction events generalizing s with
  | nil => exact .idle (List.forall_mem_nil _) rfl rfl
  | cons event events ih =>
      rw [List.mem_cons, not_or] at hevents
      have hone : Course s [event] :=
        course_onEvent fun kind result heq => (heq ▸ h).of_reply.1
      have hrest : Course (s.onEvents [event]).1 events := by
        rw [onEvents_singleton]
        exact ih (h.onEvent (Ne.symm hevents.1)) hevents.2
      exact hone.append hrest

/-- The course of what a poll handles. -/
theorem Slot.course_poll (h : Slot s []) : Course s.drained s.worker.poll.2 := by
  have hevents := h.drained_events.course_onEvents h.stopped_not_mem
  rcases Worker.poll_cases s.worker with heq | ⟨_, heq⟩
  · rwa [heq]
  · rw [heq]
    exact hevents.append (course_onEvent nofun)

/-! ## The death of the worker -/

/-- A death that was told found no call under way. -/
def Reported (s : Session) : Prop :=
  s.worker.deathReported = true → s.worker.alive = false ∧ s.inFlight = none

theorem Driven.deathReported {w w' : Worker} (h : Driven w w') :
    w'.deathReported = w.deathReported := by
  cases h with
  | signalled _ => rfl
  | sent call => exact Worker.deathReported_send w call
  | acted action =>
      have hacted := Worker.acted_act w action
      generalize w.act action = w' at hacted
      cases hacted <;> rfl

/-- If the worker is dead, a poll finds no call under way or tells of the death. -/
theorem Reported.stopped_mem (h : Reported s) (hdead : s.worker.alive = false) :
    s.inFlight = none ∨ .stopped ∈ s.worker.poll.2 := by
  cases hreported : s.worker.deathReported with
  | true => exact .inl (h hreported).2
  | false =>
      refine .inr ?_
      simp [Worker.poll, hdead, hreported]

/-- Nothing that a dead worker has left behind lets a call stay under way. -/
theorem Reported.free_poll (h : Reported s) (hslot : Slot s []) (hdead : s.worker.alive = false) :
    s.poll.1.inFlight = none := by
  have hcourse := hslot.course_poll
  cases hcourse with
  | idle hidle hkept _ =>
      refine Eq.trans hkept ?_
      rcases h.stopped_mem hdead with hfree | hmem
      · exact hfree
      · rcases hidle .stopped hmem with ⟨_, heq⟩ | ⟨_, hfree⟩
        · cases heq
        · exact hfree
  | listing _ halive _ _ _ _ => cases halive.symm.trans ((Worker.alive_poll _).trans hdead)
  | ended _ _ _ _ _ hfree _ => exact hfree

theorem deathReported_onEvents (s : Session) (events : List WorkerEvent) :
    (s.onEvents events).1.worker.deathReported = s.worker.deathReported := by
  induction events generalizing s with
  | nil => rfl
  | cons event rest ih =>
      rw [onEvents_cons, ih]
      rcases worker_onEvent s event with h | h
      · rw [h]
      · rw [h, Worker.deathReported_send]

theorem reported_step (step : Step) (hslot : Slot s []) (h : Reported s) :
    Reported (s.step step) := by
  intro hreported
  by_cases hpoll : step = .poll
  · subst hpoll
    -- A poll tells of the death only of a dead worker, and then nothing stays under way.
    have hdead : s.worker.alive = false := by
      rw [Session.step, poll_eq, deathReported_onEvents] at hreported
      cases halive : s.worker.alive with
      | false => rfl
      | true =>
          simp only [drained, Worker.poll, halive, Bool.true_or, if_true] at hreported
          cases halive.symm.trans (h hreported).1
    exact ⟨dead_step .poll hdead, h.free_poll hslot hdead⟩
  · rw [(driven_step step hpoll).deathReported] at hreported
    obtain ⟨hdead, hfree⟩ := h hreported
    refine ⟨dead_step step hdead, ?_⟩
    cases slotMoved_step step hpoll with
    | kept _ hkept => exact hkept.trans hfree
    | taken _ halive _ _ _ => cases halive.symm.trans hdead

theorem reported_run (files : FileStore) (log : Log) (dir : String) (steps : List Step) :
    Reported ((new files log dir).run steps) :=
  holds_run (fun _ step _ hslot => reported_step step hslot)
    (fun _ _ => trivial) (slot_new files log dir) nofun

/-! ## Polls -/

/-- What a poll makes of the operation under way. -/
inductive Polled (s : Session) : Prop
  | resting : s.inFlight = none → s.poll.1.inFlight = none → ends s.poll.2 = [] → Polled s
  /-- The worker lives, and still owes the answer to the call that is under way. -/
  | waiting {kind} : s.inFlight = some kind → s.worker.alive = true →
      s.worker.unanswered = [kind] → s.poll.1.inFlight = some kind → ends s.poll.2 = [] → Polled s
  /-- A load was answered, and goes on with the list. -/
  | listing {before raw metadata after} : s.inFlight = some .load →
      s.worker.poll.2 = before ++ .reply .load (.ok raw) :: after →
      Reply.parseLoad raw = .ok metadata → s.poll.1.inFlight = some .list →
      ends s.poll.2 = [] → Polled s
  /-- The last call of the operation was answered, or the worker has died; one end is told. -/
  | ended {before event after kind told} : s.underWay = some kind.opening →
      s.worker.poll.2 = before ++ event :: after →
      (s.drained.onEvents before).1.inFlight = some kind →
      event = .stopped ∨ (∃ result, event = .reply kind result) → Ends kind told →
      s.poll.1.inFlight = none → ends s.poll.2 = [told] → Polled s

theorem replyKinds_eq_nil_of_idle (h : ∀ event ∈ events, Idle s event) : replyKinds events = [] := by
  refine List.filterMap_eq_nil_iff.mpr fun event hmem => ?_
  rcases h event hmem with ⟨_, rfl⟩ | ⟨rfl, _⟩ <;> rfl

theorem Slot.polled (hslot : Slot s []) (h : Reported s) : Polled s := by
  have hcourse := hslot.course_poll
  cases hcourse with
  | idle hidle hkept hnone =>
      cases hinFlight : s.inFlight with
      | none => exact .resting hinFlight (hkept.trans hinFlight) hnone
      | some kind =>
          have halive : s.worker.alive = true := by
            cases halive : s.worker.alive with
            | true => rfl
            | false => cases hinFlight.symm.trans (hkept.symm.trans (h.free_poll hslot halive))
          refine .waiting hinFlight halive ?_ (hkept.trans hinFlight) hnone
          -- Without a reply among the events, all that is owed is unanswered.
          have howed := hslot.drained.owed_eq ((Worker.alive_poll _).trans halive)
          rw [replyKinds_eq_nil_of_idle hidle, Session.drained, Worker.outstanding, Worker.events_poll,
            Worker.unanswered_poll, hinFlight] at howed
          exact howed
  | listing hload _ hevents hparse hlist hnone => exact .listing hload hevents hparse hlist hnone
  | ended hunder hevents hlast hevent hends hfree htold =>
      exact .ended hunder hevents hlast hevent hends hfree htold

/-! ## Records -/

/-- What a caller sees of an operation. -/
inductive Mark where
  /-- A call that starts an operation was sent. -/
  | started (kind : CallKind)
  /-- A poll has told the end of an operation. -/
  | ended (told : SessionEvent)

/-- What a step tells. -/
def told (s : Session) : Step → List SessionEvent
  | .poll => s.poll.2
  | _ => []

/-- What a caller sees of a step. -/
def marks (s : Session) (step : Step) : List Mark :=
  (s.started? step).toList.map .started ++ (ends (s.told step)).map .ended

/-- What a caller sees of a run. -/
def record (s : Session) : List Step → List Mark
  | [] => []
  | step :: rest => s.marks step ++ (s.step step).record rest

/-- What a caller sees of an operation that was started and ended. -/
def Mark.both (last : CallKind × SessionEvent) : List Mark :=
  [.started last.1.opening, .ended last.2]

/-- A step leaves the operation under way, starts one or ends it. -/
inductive Marked (s : Session) (step : Step) : Prop
  | nothing : s.marks step = [] → (s.step step).underWay = s.underWay → Marked s step
  | started {kind} : s.underWay = none → s.marks step = [.started kind] →
      (s.step step).underWay = some kind → Marked s step
  | ended {kind told} : s.underWay = some kind.opening → Ends kind told →
      s.marks step = [.ended told] → (s.step step).underWay = none → Marked s step

theorem marks_of_ne {step : Step} (hpoll : step ≠ .poll) :
    s.marks step = (s.started? step).toList.map .started := by
  cases step with
  | poll => exact absurd rfl hpoll
  | _ => exact List.append_nil _

theorem opening_of_ne_list {kind : CallKind} (h : kind ≠ .list) : kind.opening = kind := by
  cases kind with
  | list => exact absurd rfl h
  | load | extract | optionsDiffer => rfl

theorem marked_poll (hslot : Slot s []) (h : Reported s) : Marked s .poll := by
  have hmarks : s.marks .poll = (ends s.poll.2).map .ended := rfl
  have hunder : (s.step .poll).underWay = s.poll.1.inFlight.map CallKind.opening := rfl
  cases hslot.polled h with
  | resting hfree hfree' hnone =>
      exact .nothing (by rw [hmarks, hnone]; rfl) (by rw [hunder, underWay, hfree, hfree'])
  | waiting hkind _ _ hkind' hnone =>
      exact .nothing (by rw [hmarks, hnone]; rfl) (by rw [hunder, underWay, hkind, hkind'])
  | listing hload _ _ hlist hnone =>
      exact .nothing (by rw [hmarks, hnone]; rfl) (by rw [hunder, underWay, hload, hlist]; rfl)
  | ended hbefore _ _ _ hends hfree htold =>
      exact .ended hbefore hends (by rw [hmarks, htold]; rfl) (by rw [hunder, hfree]; rfl)

theorem marked_step (step : Step) (hslot : Slot s []) (h : Reported s) : Marked s step := by
  by_cases hpoll : step = .poll
  · rw [hpoll]
    exact marked_poll hslot h
  · have hmarks := marks_of_ne (s := s) hpoll
    cases slotMoved_step step hpoll with
    | kept hnone hkept =>
        exact .nothing (by rw [hmarks, hnone]; rfl) (by rw [underWay, hkept, underWay])
    | taken hfree _ hstarted hkind htaken =>
        refine .started (by rw [underWay, hfree]; rfl) (by rw [hmarks, hstarted]; rfl) ?_
        rw [underWay, htaken, Option.map_some, opening_of_ne_list hkind]

/-- A record tells of operations that were started and ended, one after another, and at last of the
one that is still under way. -/
theorem record_paired (hslot : Slot s []) (h : Reported s) (steps : List Step) :
    ∃ ended : List (CallKind × SessionEvent), (∀ last ∈ ended, Ends last.1 last.2) ∧
      s.underWay.toList.map .started ++ s.record steps =
        ended.flatMap Mark.both ++ (s.run steps).underWay.toList.map .started := by
  induction steps generalizing s with
  | nil => exact ⟨[], List.forall_mem_nil _, by rw [record, List.append_nil]; rfl⟩
  | cons step steps ih =>
      obtain ⟨ended, hended, hrest⟩ := ih (slot_step hslot step) (reported_step step hslot h)
      rw [show s.run (step :: steps) = (s.step step).run steps from rfl, record]
      cases marked_step step hslot h with
      | nothing hmarks hkept =>
          refine ⟨ended, hended, ?_⟩
          rw [← hrest, hmarks, hkept, List.nil_append]
      | @started kind hfree hmarks hunder =>
          refine ⟨ended, hended, ?_⟩
          rw [← hrest, hmarks, hfree, hunder]
          rfl
      | @ended kind told hunder hends hmarks hfree =>
          refine ⟨(kind, told) :: ended, List.forall_mem_cons.mpr ⟨hends, hended⟩, ?_⟩
          rw [List.flatMap_cons, List.append_assoc, ← hrest, hmarks, hunder, hfree]
          rfl

/-- **Every operation ends once**: what a caller sees of a run is a sequence of operations, each
started by a call that was accepted and ended by one event of its kind, and at last the start of the
one that is still under way.  Every poll tells the end of what is under way, and frees the slot, as
soon as the last call was answered or the worker has died; else it tells no end, and the worker
still owes an answer or the load goes on with the list. -/
theorem endings_run (files : FileStore) (log : Log) (dir : String) (steps : List Step) :
    let s := (new files log dir).run steps
    (∃ ended : List (CallKind × SessionEvent), (∀ last ∈ ended, Ends last.1 last.2) ∧
        (new files log dir).record steps =
          ended.flatMap Mark.both ++ s.underWay.toList.map .started) ∧
      Polled s :=
  ⟨record_paired (slot_new files log dir) nofun steps,
    (slot_run files log dir steps).polled (reported_run files log dir steps)⟩

/-- A load that ends well, and a check of the options that the death of the worker ends. -/
example : ((new emptyFiles (.new .live) "out").record
    (loadSteps ++ [.checkOptions {}, .worker .die, .poll, .poll])).length = 4 := by decide +kernel

end Session

end InstallerBrowser
