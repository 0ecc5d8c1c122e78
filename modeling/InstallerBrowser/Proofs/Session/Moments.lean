import InstallerBrowser.Proofs.Session.Extraction
import InstallerBrowser.Proofs.Session.Stage

/-!
# InstallerBrowser.Proofs.Session.Moments

A run of a session, one thing after another.

A poll handles the events of the worker in turn, and between two of them the session has a state of
its own.  `moments` lists all that happens in a run in its order, each operation and each event
that a poll handles, with the session that meets it.  `Along` is what a property of the past and of
the session has to keep at each moment; it then holds all along the run (`Along.moments`), and
with it whatever follows from it at a moment (`Along.split`).

For the slot there are few kinds of moments: an operation sends a call or leaves the slot alone
(`slotMoved_step`), and an event ends the call under way, lets a load go on with a list, or does
neither (`turn_onEvent`).
-/

namespace InstallerBrowser.Session

variable {s : Session} {events rest : List WorkerEvent}

/-! ## Moments -/

/-- What can happen to a session at once. -/
inductive Happening where
  | operation (step : Step)
  /-- A poll handles an event of the worker. -/
  | event (event : WorkerEvent)

/-- Something that happens, and the session that meets it. -/
structure Moment where
  session : Session
  happening : Happening

namespace Moment

/-- The session after a moment. -/
def next (m : Moment) : Session :=
  match m.happening with
  | .operation step => m.session.step step
  | .event event => (m.session.onEvent event).1

/-- What is told at a moment. -/
def told (m : Moment) : List SessionEvent :=
  match m.happening with
  | .operation _ => []
  | .event event => (m.session.onEvent event).2

end Moment

/-- The moments at which some events are handled. -/
def eventMoments (s : Session) : List WorkerEvent → List Moment
  | [] => []
  | event :: rest => ⟨s, .event event⟩ :: (s.onEvent event).1.eventMoments rest

/-- The moments of a step: one, or for a poll as many as there are events. -/
def stepMoments (s : Session) : Step → List Moment
  | .poll => s.drained.eventMoments s.worker.poll.2
  | step => [⟨s, .operation step⟩]

/-- The moments of a run. -/
def moments (s : Session) : List Step → List Moment
  | [] => []
  | step :: rest => s.stepMoments step ++ (s.step step).moments rest

theorem eventMoments_append (s : Session) (before after : List WorkerEvent) :
    s.eventMoments (before ++ after) =
      s.eventMoments before ++ (s.onEvents before).1.eventMoments after := by
  induction before generalizing s with
  | nil => rfl
  | cons event before ih =>
      simp only [List.cons_append, eventMoments, ih]
      rfl

theorem stepMoments_of_ne {step : Step} (h : step ≠ .poll) :
    s.stepMoments step = [⟨s, .operation step⟩] := by
  cases step with
  | poll => exact absurd rfl h
  | _ => rfl

/-! ## What holds along a run -/

/-- A property of what has happened and of the session after it, kept whatever happens next: a poll
takes the events of the worker, an operation begins with nothing to be handled, and a reply that
is handled is of the kind in the slot. -/
structure Along (P : List Moment → Session → Prop) : Prop where
  drained : ∀ past s, P past s → P past s.drained
  operation : ∀ past s step, step ≠ .poll → Slot s [] → P past s →
    P (past ++ [⟨s, .operation step⟩]) (s.step step)
  event : ∀ past s event,
    (∀ kind result, event = .reply kind result → s.inFlight = some kind) → P past s →
    P (past ++ [⟨s, .event event⟩]) (s.onEvent event).1

variable {P : List Moment → Session → Prop} {past : List Moment}

theorem Along.eventMoments (hP : Along P) (h : Slot s (events ++ rest)) (hevents : .stopped ∉ events)
    (hs : P past s) : P (past ++ s.eventMoments events) (s.onEvents events).1 := by
  induction events generalizing s past with
  | nil => simpa [Session.eventMoments, onEvents] using hs
  | cons event events ih =>
      rw [List.mem_cons, not_or] at hevents
      have hnext := hP.event past s event (fun kind result heq => (heq ▸ h).of_reply.1) hs
      have hrest := ih (h.onEvent (Ne.symm hevents.1)) hevents.2 hnext
      rwa [List.append_assoc] at hrest

theorem Along.poll (hP : Along P) (h : Slot s []) (hs : P past s) :
    P (past ++ s.stepMoments .poll) s.poll.1 := by
  have hhandled := hP.eventMoments h.drained_events h.stopped_not_mem (hP.drained past s hs)
  rw [stepMoments, poll_eq]
  rcases Worker.poll_cases s.worker with heq | ⟨_, heq⟩
  · rw [heq]
    exact hhandled
  · -- The report of the death comes last, and is no reply.
    rw [heq, eventMoments_append, onEvents_append, ← List.append_assoc]
    exact hP.event _ _ .stopped nofun hhandled

/-- What is kept at every moment holds after a run. -/
theorem Along.moments (hP : Along P) (h : Slot s []) (hs : P past s) (steps : List Step) :
    P (past ++ s.moments steps) (s.run steps) := by
  induction steps generalizing s past with
  | nil =>
      rw [Session.moments, List.append_nil]
      exact hs
  | cons step steps ih =>
      have hstep : P (past ++ s.stepMoments step) (s.step step) := by
        by_cases hpoll : step = .poll
        · rw [hpoll]
          exact hP.poll h hs
        · rw [stepMoments_of_ne hpoll]
          exact hP.operation past s step hpoll h hs
      have hrest := ih (slot_step h step) hstep
      rwa [List.append_assoc] at hrest

/-- Every moment has behind it what the one before it has, and itself. -/
theorem forall_split_concat {α : Type} {Q : List α → α → Prop} {past : List α} {x : α}
    (h : ∀ earlier m later, past = earlier ++ m :: later → Q earlier m) (hx : Q past x) :
    ∀ earlier m later, past ++ [x] = earlier ++ m :: later → Q earlier m := by
  intro earlier m later heq
  rcases List.eq_nil_or_concat later with rfl | ⟨later, last, rfl⟩
  · obtain ⟨rfl, hlast⟩ := List.append_inj' heq rfl
    cases hlast
    exact hx
  · rw [List.concat_eq_append, ← List.cons_append, ← List.append_assoc] at heq
    exact h earlier m later (List.append_inj' heq rfl).1

/-- What follows at a moment from a property that is kept holds of every moment of a run and of all
that has happened before it. -/
theorem Along.split {Q : List Moment → Moment → Prop} (hP : Along P)
    (hoperation : ∀ past s step, step ≠ .poll → P past s → Q past ⟨s, .operation step⟩)
    (hevent : ∀ past s event,
      (∀ kind result, event = .reply kind result → s.inFlight = some kind) → P past s →
      Q past ⟨s, .event event⟩)
    (h : Slot s []) (hs : P [] s) (steps : List Step) :
    ∀ earlier m later, s.moments steps = earlier ++ m :: later → Q earlier m := by
  have halong : Along fun past s => P past s ∧
      ∀ earlier m later, past = earlier ++ m :: later → Q earlier m := by
    refine ⟨fun past s hs => ⟨hP.drained past s hs.1, hs.2⟩, fun past s step hpoll hslot hs => ?_,
      fun past s event hreply hs => ?_⟩
    · exact ⟨hP.operation past s step hpoll hslot hs.1,
        forall_split_concat hs.2 (hoperation past s step hpoll hs.1)⟩
    · exact ⟨hP.event past s event hreply hs.1,
        forall_split_concat hs.2 (hevent past s event hreply hs.1)⟩
  have hnil : ∀ earlier m later, ([] : List Moment) = earlier ++ m :: later → Q earlier m := by simp
  exact (halong.moments h ⟨hs, hnil⟩ steps).2

/-! ## The slot from moment to moment -/

/-- The kind of a call that was sent, if it was not refused. -/
def accepted (kind : CallKind) : Except AppError Unit → Option CallKind
  | .ok () => some kind
  | .error _ => none

/-- The kind of the call with which a step starts an operation. -/
def started? (s : Session) : Step → Option CallKind
  | .load file options => accepted .load (s.load file options).2
  | .extract => accepted .extract s.extract.2
  | .checkOptions options => accepted .optionsDiffer (s.checkOptions options).2
  | .abort | .selectLanguage _ | .discardInstaller | .changeTree _ | .poll | .shutdown
  | .worker _ | .storage _ => none

/-- What a step that is no poll can do to the slot. -/
inductive SlotMoved (s : Session) (step : Step) : Prop
  | kept : s.started? step = none → (s.step step).inFlight = s.inFlight → SlotMoved s step
  | taken {kind} : s.inFlight = none → s.worker.alive = true → s.started? step = some kind →
      kind ≠ .list → (s.step step).inFlight = some kind → SlotMoved s step

theorem slotMoved_step (step : Step) (hpoll : step ≠ .poll) : SlotMoved s step := by
  cases step with
  | load file options =>
      have hload := loadResult s file options
      generalize hr : s.load file options = r at hload
      cases hload with
      | busy _ | locked _ _ =>
          exact .kept (by simp only [started?, hr, accepted]) (by simp only [Session.step, hr])
      | refused _ _ _ =>
          exact .kept (by simp only [started?, hr, accepted]) (by simp only [Session.step, hr]; rfl)
      | sent log hfree _ halive =>
          have hstarted : s.started? (.load file options) = some .load := by
            simp only [started?, hr, accepted]
          exact .taken hfree halive hstarted (by decide) (by simp only [Session.step, hr])
  | extract =>
      have hextract := extractResult s
      generalize hr : s.extract = r at hextract
      cases hextract with
      | busy _ | unready _ _ | unopened _ _ _ | refused _ _ _ _ _ =>
          exact .kept (by simp only [started?, hr, accepted]) (by simp only [Session.step, hr])
      | sent progress log hfree _ _ halive =>
          have hstarted : s.started? .extract = some .extract := by
            simp only [started?, hr, accepted]
          exact .taken hfree halive hstarted (by decide) (by simp only [Session.step, hr])
  | checkOptions options =>
      have hcheck := checkResult s options
      generalize hr : s.checkOptions options = r at hcheck
      cases hcheck with
      | busy _ | refused _ _ =>
          exact .kept (by simp only [started?, hr, accepted]) (by simp only [Session.step, hr])
      | sent hfree halive =>
          have hstarted : s.started? (.checkOptions options) = some .optionsDiffer := by
            simp only [started?, hr, accepted]
          exact .taken hfree halive hstarted (by decide) (by simp only [Session.step, hr])
  | abort =>
      rcases abort_cases s with heq | ⟨_, _, progress, log, heq⟩
      · exact .kept rfl (by rw [Session.step, heq])
      · exact .kept rfl (by rw [Session.step, heq])
  | selectLanguage i => exact .kept rfl (quiet_selectLanguage s i).inFlight
  | discardInstaller =>
      rcases discardInstaller_cases s with ⟨e, heq⟩ | ⟨_, _, log, heq⟩
      · exact .kept rfl (by rw [Session.step, heq])
      · exact .kept rfl (by rw [Session.step, heq]; rfl)
  | changeTree op => exact .kept rfl (quiet_changeTree s op).inFlight
  | poll => exact absurd rfl hpoll
  | shutdown =>
      obtain ⟨_, files, output, heq⟩ := shutdown_eq s
      exact .kept rfl (by rw [Session.step, heq])
  | worker action => exact .kept rfl rfl
  | storage change => exact .kept rfl rfl

/-- An event tells the end of a call of a kind.  A load that goes well is told with its list. -/
inductive Ends : CallKind → SessionEvent → Prop
  | loaded (name entries) : Ends .list (.loaded name entries)
  | extracted (output status) : Ends .extract (.extracted output status)
  | aborted (status) : Ends .extract (.aborted status)
  | optionsDiffer (differ) : Ends .optionsDiffer (.optionsDiffer differ)
  | failed (kind e) : Ends kind (.failed e)

theorem Ends.endsCall {kind : CallKind} {told : SessionEvent} (h : Ends kind told) :
    told.endsCall = true := by
  cases h <;> rfl

/-- What handling an event can do to the slot, and which end it tells then. -/
inductive Turn (s : Session) : WorkerEvent → Session × List SessionEvent → Prop
  | idle {event t told} : Idle s event → t.inFlight = s.inFlight →
      told.filter SessionEvent.endsCall = [] → Turn s event (t, told)
  | listing {raw metadata t} : s.inFlight = some .load → s.worker.alive = true →
      Reply.parseLoad raw = .ok metadata → t.inFlight = some .list → Turn s (.reply .load (.ok raw)) (t, [])
  | replied {kind result t told} : s.inFlight = some kind → t.inFlight = none → Ends kind told →
      Turn s (.reply kind result) (t, [told])
  | stopped {kind t e} : s.inFlight = some kind → t.inFlight = none → Turn s .stopped (t, [.failed e])

theorem turn_onEvent {event : WorkerEvent}
    (hslot : ∀ kind result, event = .reply kind result → s.inFlight = some kind) :
    Turn s event (s.onEvent event) := by
  cases event with
  | notice notice =>
      obtain ⟨progress, log, heq, htold⟩ := onEvent_idle (s := s) (.inl ⟨notice, rfl⟩)
      have hslot : (s.onEvent (.notice notice)).1.inFlight = s.inFlight := by rw [heq]
      exact .idle (.inl ⟨notice, rfl⟩) hslot htold
  | stopped =>
      rcases onEvent_stopped_cases s with ⟨hfree, heq⟩ | ⟨kind, hkind, heq⟩
      · rw [heq]
        exact .idle (.inr ⟨rfl, hfree⟩) rfl rfl
      · rw [heq]
        exact .stopped hkind (inFlight_afterFailure _ kind)
  | reply kind result =>
      have hkind := hslot kind result rfl
      have hreply := replyResult s kind result
      generalize s.onEvent (.reply kind result) = r at hreply
      cases hreply with
      | faulty _ => exact .replied hkind (inFlight_afterFailure _ kind) (.failed kind _)
      | loaded _ _ hparse _ halive => exact .listing hkind halive hparse rfl
      | unlisted _ _ _ => exact .replied hkind rfl (.failed _ _)
      | listed _ _ _ => exact .replied hkind rfl (.loaded _ _)
      | completed _ _ _ _ _ => exact .replied hkind rfl (.extracted _ _)
      | uncommitted _ _ | undiscarded _ _ => exact .replied hkind rfl (.failed _ _)
      | aborted _ _ _ => exact .replied hkind rfl (.aborted _)
      | answered _ => exact .replied hkind rfl (.optionsDiffer _)

end InstallerBrowser.Session
