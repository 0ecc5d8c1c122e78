import InstallerBrowser.Proofs.Session.Slot
import InstallerBrowser.Proofs.Storage.Staging

/-!
# InstallerBrowser.Proofs.Session.Extraction

What an extraction does to the files.

From the extraction that is sent to its end the session holds the output (`Held`), and as long as
nobody else writes, the files change at most at the staging path (`During`, `held_during`).  The
poll that ends it does one of the things that `Ending` lists, and tells one end
(`Held.poll_cases`); a shutdown removes what is staged.
-/

namespace InstallerBrowser

/-- Whether an event tells the end of a call. -/
def SessionEvent.endsCall : SessionEvent → Bool
  | .status _ | .progress _ => false
  | .loaded _ _ | .extracted _ _ | .aborted _ | .optionsDiffer _ | .failed _ => true

namespace Session

open FileStore

variable {s t opened : Session} {sink : OutputSink} {events : List WorkerEvent}

/-! ## Events that end nothing -/

/-- An event that ends no call: a notice, or the death of a worker that owes nothing. -/
def Idle (s : Session) (event : WorkerEvent) : Prop :=
  (∃ notice, event = .notice notice) ∨ event = .stopped ∧ s.inFlight = none

theorem onEvent_idle {event : WorkerEvent} (h : Idle s event) : ∃ progress log,
    (s.onEvent event).1 = { s with progress, log } ∧
      (s.onEvent event).2.filter SessionEvent.endsCall = [] := by
  rcases h with ⟨notice, rfl⟩ | ⟨rfl, hfree⟩
  · obtain ⟨progress, log, heq, htold⟩ := onNotice_cases s notice
    refine ⟨progress, log, heq, ?_⟩
    rw [onEvent]
    rcases htold with ⟨text, htold⟩ | ⟨percent, htold⟩ | htold
    all_goals
      rw [htold]
      rfl
  · rcases onEvent_stopped_cases s with ⟨_, heq⟩ | ⟨kind, hslot, _⟩
    · rw [heq]
      exact ⟨s.progress, s.log, rfl, rfl⟩
    · cases hfree.symm.trans hslot

theorem onEvents_idle (h : ∀ event ∈ events, Idle s event) : ∃ progress log,
    (s.onEvents events).1 = { s with progress, log } ∧
      (s.onEvents events).2.filter SessionEvent.endsCall = [] := by
  induction events generalizing s with
  | nil => exact ⟨s.progress, s.log, rfl, rfl⟩
  | cons event events ih =>
      rw [List.forall_mem_cons] at h
      obtain ⟨progress, log, heq, htold⟩ := onEvent_idle h.1
      obtain ⟨progress', log', heq', htold'⟩ := ih (s := { s with progress, log }) h.2
      rw [onEvents_cons, heq, heq', List.filter_append, htold, htold']
      exact ⟨progress', log', rfl, rfl⟩

/-- With a free slot, events without a reply end nothing. -/
theorem idle_of_replyKinds (hfree : s.inFlight = none) (h : replyKinds events = []) :
    ∀ event ∈ events, Idle s event := by
  intro event hmem
  have hkind := List.filterMap_eq_nil_iff.mp h event hmem
  cases event with
  | notice notice => exact .inl ⟨notice, rfl⟩
  | reply kind result => cases hkind
  | stopped => exact .inr ⟨rfl, hfree⟩

/-- Some events are all notices, or one of them is the first that is not. -/
theorem notices_or_split (events : List WorkerEvent) :
    (∀ event ∈ events, ∃ notice, event = .notice notice) ∨
      ∃ before event rest, events = before ++ event :: rest ∧
        (∀ e ∈ before, ∃ notice, e = .notice notice) ∧ ∀ notice, event ≠ .notice notice := by
  induction events with
  | nil => exact .inl (List.forall_mem_nil _)
  | cons event events ih =>
      cases event with
      | notice notice =>
          rcases ih with hall | ⟨before, event, rest, rfl, hbefore, hevent⟩
          · exact .inl (List.forall_mem_cons.mpr ⟨⟨notice, rfl⟩, hall⟩)
          · exact .inr ⟨.notice notice :: before, event, rest, rfl,
              List.forall_mem_cons.mpr ⟨⟨notice, rfl⟩, hbefore⟩, hevent⟩
      | reply kind result => exact .inr ⟨[], _, events, rfl, List.forall_mem_nil _, nofun⟩
      | stopped => exact .inr ⟨[], _, events, rfl, List.forall_mem_nil _, nofun⟩

/-! ## How an extraction ends -/

/-- What the event that ends an extraction makes of the files, and the end that is told. -/
inductive Ending (sink : OutputSink) (files : FileStore) :
    WorkerEvent → FileStore → SessionEvent → Prop
  /-- What was staged has its final name. -/
  | committed {raw status content after} :
      Reply.parseExtract raw = .ok (.completed status) → sink.Committed content files after →
      Ending sink files (.reply .extract (.ok raw)) after
        (.extracted (some sink.finalPath) (statusOr status "Completed successfully"))
  /-- Nothing was staged. -/
  | empty {raw status} :
      Reply.parseExtract raw = .ok (.completed status) →
      files.pathExists sink.stagingPath = false →
      Ending sink files (.reply .extract (.ok raw)) files
        (.extracted none (statusOr status "Completed successfully"))
  /-- A directory has the final name. -/
  | unrenamed {raw status after e} :
      Reply.parseExtract raw = .ok (.completed status) → files.isDir sink.finalPath = true →
      Cleared sink.stagingPath files after →
      Ending sink files (.reply .extract (.ok raw)) after (.failed (.storage e))
  | aborted {raw status after} :
      Reply.parseExtract raw = .ok (.aborted status) → Cleared sink.stagingPath files after →
      Ending sink files (.reply .extract (.ok raw)) after
        (.aborted (statusOr status "Aborted by user"))
  | undiscarded {raw status after e} :
      Reply.parseExtract raw = .ok (.aborted status) → Cleared sink.stagingPath files after →
      Ending sink files (.reply .extract (.ok raw)) after (.failed (.storage e))
  | unparsable {raw after e} :
      Reply.parseExtract raw = .error e → Cleared sink.stagingPath files after →
      Ending sink files (.reply .extract (.ok raw)) after (.failed e)
  | failed {after e} : Cleared sink.stagingPath files after →
      Ending sink files (.reply .extract (.error e)) after (.failed e)
  | stopped {after} : Cleared sink.stagingPath files after →
      Ending sink files .stopped after (.failed (.protocol .workerStopped))

variable {files after : FileStore} {event : WorkerEvent} {told : SessionEvent}

theorem Ending.endsCall (h : Ending sink files event after told) : told.endsCall = true := by
  cases h <;> rfl

theorem committed_of_output (h : s.output = some sink) : s.committed = sink.commit s.files := by
  rw [committed, h]

theorem discarded_of_output (h : s.output = some sink) : s.discarded = sink.discard s.files := by
  rw [discarded, h]

/-- The session after the event that ends an extraction. -/
structure Ended (sink : OutputSink) (files : FileStore) (event : WorkerEvent)
    (r : Session × List SessionEvent) : Prop where
  inFlight : r.1.inFlight = none
  output : r.1.output = none
  told : ∃ told, Ending sink files event r.1.files told ∧ r.2 = [told]

theorem ended_reply (houtput : s.output = some sink) (hpath : IsOutputPath sink.finalPath)
    (hdir : s.files.isDir sink.stagingPath = false) (result : Except AppError String) :
    Ended sink s.files (.reply .extract result) (s.onEvent (.reply .extract result)) := by
  have hcommit : { s with inFlight := none }.committed = sink.commit s.files :=
    committed_of_output houtput
  have hdiscard : { s with inFlight := none }.discarded = sink.discard s.files :=
    discarded_of_output houtput
  have hcleared := sink.cleared_discard hdir
  have hreply := replyResult s .extract result
  generalize s.onEvent (.reply .extract result) = r at hreply
  cases hreply with
  | faulty hfault =>
      refine ⟨rfl, rfl, _, ?_, rfl⟩
      rw [afterFailure, hdiscard]
      cases hfault with
      | error _ e => exact .failed hcleared
      | extract hparse => exact .unparsable hparse hcleared
  | completed text log hparse hpathname htext =>
      rw [hcommit] at hpathname
      refine ⟨rfl, rfl, _, ?_, rfl⟩
      rw [hcommit, htext]
      rcases OutputSink.commit_cases hpath hdir with
        ⟨hnone, heq⟩ | ⟨content, b, hb, heq⟩ | ⟨b, _, heq, _⟩
      · rw [heq] at hpathname ⊢
        cases hpathname
        exact .empty hparse hnone
      · rw [heq] at hpathname ⊢
        cases hpathname
        exact .committed hparse hb
      · rw [heq] at hpathname
        cases hpathname
  | uncommitted hparse herror =>
      rw [hcommit] at herror
      refine ⟨rfl, rfl, _, ?_, rfl⟩
      rw [hcommit]
      rcases OutputSink.commit_cases hpath hdir with
        ⟨hnone, heq⟩ | ⟨content, b, hb, heq⟩ | ⟨b, hb, heq, hfinal⟩
      · rw [heq] at herror
        cases herror
      · rw [heq] at herror
        cases herror
      · rw [heq]
        exact .unrenamed hparse hfinal hb
  | aborted log hparse _ =>
      refine ⟨rfl, rfl, _, ?_, rfl⟩
      rw [hdiscard]
      exact .aborted hparse hcleared
  | undiscarded hparse _ =>
      refine ⟨rfl, rfl, _, ?_, rfl⟩
      rw [hdiscard]
      exact .undiscarded hparse hcleared

theorem ended_stopped (hslot : s.inFlight = some .extract) (houtput : s.output = some sink)
    (hdir : s.files.isDir sink.stagingPath = false) :
    Ended sink s.files .stopped (s.onEvent .stopped) := by
  rcases onEvent_stopped_cases s with ⟨hfree, _⟩ | ⟨kind, hkind, heq⟩
  · cases hfree.symm.trans hslot
  · cases hslot.symm.trans hkind
    have hdiscard : { s with inFlight := none }.discarded = sink.discard s.files :=
      discarded_of_output houtput
    rw [heq]
    refine ⟨rfl, rfl, _, ?_, rfl⟩
    rw [afterFailure, hdiscard]
    exact .stopped (sink.cleared_discard hdir)

/-! ## While an extraction is under way -/

/-- An extraction is under way, and its output is held. -/
structure Held (sink : OutputSink) (s : Session) : Prop where
  slot : Slot s []
  inFlight : s.inFlight = some .extract
  output : s.output = some sink
  not_dir : s.files.isDir sink.stagingPath = false

/-- Behind the report that the worker is dead nothing is polled. -/
theorem eq_nil_of_stopped (hslot : Slot s []) {before rest : List WorkerEvent}
    (h : s.worker.poll.2 = before ++ .stopped :: rest) : rest = [] := by
  rcases Worker.poll_cases s.worker with heq | ⟨_, heq⟩
  · rw [heq] at h
    exact absurd (h ▸ List.mem_append_right _ List.mem_cons_self) hslot.stopped_not_mem
  · rw [heq] at h
    rcases List.eq_nil_or_concat rest with rfl | ⟨rest', event, rfl⟩
    · rfl
    · rw [List.concat_eq_append, ← List.cons_append, ← List.append_assoc] at h
      have hevents := (List.append_inj' h rfl).1
      exact absurd (hevents ▸ List.mem_append_right _ List.mem_cons_self) hslot.stopped_not_mem

/-- The event that ends an extraction, behind some notices, and what is polled behind it. -/
theorem Held.ended (h : Held sink s) (hpath : IsOutputPath sink.finalPath)
    {before rest : List WorkerEvent} {event : WorkerEvent}
    (hpoll : s.worker.poll.2 = before ++ event :: rest)
    (hbefore : ∀ e ∈ before, ∃ notice, e = .notice notice)
    (hevent : ∀ notice, event ≠ .notice notice) :
    Ended sink s.files event ((s.drained.onEvents before).1.onEvent event) ∧
      replyKinds rest = [] := by
  obtain ⟨progress, log, heq, _⟩ :=
    onEvents_idle (s := s.drained) fun e he => .inl (hbefore e he)
  -- The notices in front change neither the slot nor the output, so the event finds both held.
  have hstopped : .stopped ∉ before := fun hmem => nomatch hbefore _ hmem
  have hdrained := h.slot.drained
  rw [hpoll] at hdrained
  cases event with
  | notice notice => exact absurd rfl (hevent notice)
  | reply kind result =>
      obtain ⟨hkind, hrest, _⟩ := (slot_onEvents hdrained hstopped).of_reply
      rw [heq] at hkind ⊢
      cases h.inFlight.symm.trans hkind
      have hended := ended_reply (s := { s.drained with progress, log }) h.output hpath h.not_dir
      exact ⟨hended result, hrest⟩
  | stopped =>
      rw [heq, eq_nil_of_stopped h.slot hpoll]
      have hended := ended_stopped (s := { s.drained with progress, log }) h.inFlight h.output
      exact ⟨hended h.not_dir, rfl⟩

/-- A poll of notices leaves an extraction under way and the files alone, any other ends it. -/
theorem Held.poll_cases (h : Held sink s) (hpath : IsOutputPath sink.finalPath) :
    (∀ event ∈ s.worker.poll.2, ∃ notice, event = .notice notice) ∧
        s.poll.1.output = some sink ∧ s.poll.1.inFlight = some .extract ∧
        s.poll.1.files = s.files ∧ s.poll.2.filter SessionEvent.endsCall = [] ∨
      s.poll.1.output = none ∧ ∃ event ∈ s.worker.poll.2, ∃ told,
        Ending sink s.files event s.poll.1.files told ∧
          s.poll.2.filter SessionEvent.endsCall = [told] := by
  rw [poll_eq]
  rcases notices_or_split s.worker.poll.2 with hall | ⟨before, event, rest, hpoll, hbefore, hevent⟩
  · obtain ⟨progress, log, heq, htold⟩ :=
      onEvents_idle (s := s.drained) fun e he => .inl (hall e he)
    rw [heq]
    exact .inl ⟨hall, h.output, h.inFlight, rfl, htold⟩
  · -- The event frees the slot and nothing behind it is a reply, so it alone tells an end.
    obtain ⟨⟨hfree, hnone, told, hending, htold⟩, hrest⟩ := h.ended hpath hpoll hbefore hevent
    obtain ⟨_, _, _, hquiet⟩ := onEvents_idle (s := s.drained) fun e he => .inl (hbefore e he)
    obtain ⟨progress, log, heq, hquiet'⟩ := onEvents_idle (idle_of_replyKinds hfree hrest)
    refine .inr ?_
    rw [hpoll, onEvents_append, onEvents_cons, heq]
    refine ⟨hnone, event, List.mem_append_right _ List.mem_cons_self, told, hending, ?_⟩
    rw [List.filter_append, List.filter_append, hquiet, hquiet', htold, List.nil_append,
      List.append_nil, List.filter_singleton, hending.endsCall]
    rfl

theorem shutdown_of_output (h : s.output = some sink) :
    s.shutdown.output = none ∧ s.shutdown.files = (sink.discard s.files).1 := by
  unfold shutdown
  split
  · simp [h]
  · simp [h]

/-- Only a poll or a shutdown can end an extraction, and nothing else but a change of the files
changes them. -/
theorem Held.step_of_ne (h : Held sink s) {step : Step} (hpoll : step ≠ .poll)
    (hshutdown : step ≠ .shutdown) :
    (s.step step).output = some sink ∧ (s.step step).inFlight = some .extract ∧
      ((s.step step).files = s.files ∨
        ∃ change, step = .storage change ∧ (s.step step).files = change s.files) := by
  cases step with
  | load file options =>
      rw [Session.step, load_of_busy h.inFlight]
      exact ⟨h.output, h.inFlight, .inl rfl⟩
  | extract =>
      rw [Session.step, extract_of_busy h.inFlight]
      exact ⟨h.output, h.inFlight, .inl rfl⟩
  | checkOptions options =>
      rw [Session.step, checkOptions_of_busy h.inFlight]
      exact ⟨h.output, h.inFlight, .inl rfl⟩
  | abort =>
      rcases abort_cases s with heq | ⟨_, _, progress, log, heq⟩
      · rw [Session.step, heq]
        exact ⟨h.output, h.inFlight, .inl rfl⟩
      · rw [Session.step, heq]
        exact ⟨h.output, h.inFlight, .inl rfl⟩
  | selectLanguage i =>
      have hquiet := quiet_selectLanguage s i
      exact ⟨hquiet.output.trans h.output, hquiet.inFlight.trans h.inFlight, .inl hquiet.files⟩
  | discardInstaller =>
      rcases discardInstaller_cases s with ⟨e, heq⟩ | ⟨hfree, _, log, _⟩
      · rw [Session.step, heq]
        exact ⟨h.output, h.inFlight, .inl rfl⟩
      · cases hfree.symm.trans h.inFlight
  | changeTree op =>
      have hquiet := quiet_changeTree s op
      exact ⟨hquiet.output.trans h.output, hquiet.inFlight.trans h.inFlight, .inl hquiet.files⟩
  | poll => exact absurd rfl hpoll
  | shutdown => exact absurd rfl hshutdown
  | worker action => exact ⟨h.output, h.inFlight, .inl rfl⟩
  | storage change => exact ⟨h.output, h.inFlight, .inr ⟨change, rfl, rfl⟩⟩

/-- A step that leaves the output held leaves the call under way, and changes the files at most
where it stages. -/
theorem Held.step_files (h : Held sink s) (hpath : IsOutputPath sink.finalPath) {step : Step}
    (hstorage : ∀ change, step = .storage change →
      StagesAt sink.stagingPath s.files (change s.files))
    (hheld : (s.step step).output = some sink) :
    (s.step step).inFlight = some .extract ∧
      StagesAt sink.stagingPath s.files (s.step step).files := by
  by_cases hpoll : step = .poll
  · subst hpoll
    rw [Session.step] at hheld ⊢
    rcases h.poll_cases hpath with ⟨_, _, hslot, hfiles, _⟩ | ⟨hnone, _⟩
    · rw [hslot, hfiles]
      exact ⟨rfl, stagesAt_refl h.not_dir⟩
    · cases hnone.symm.trans hheld
  by_cases hshutdown : step = .shutdown
  · subst hshutdown
    cases (shutdown_of_output h.output).1.symm.trans hheld
  obtain ⟨_, hslot, hfiles | ⟨change, hchange, hfiles⟩⟩ := h.step_of_ne hpoll hshutdown
  · rw [hfiles]
    exact ⟨hslot, stagesAt_refl h.not_dir⟩
  · rw [hfiles]
    exact ⟨hslot, hstorage change hchange⟩

/-- The sessions while an extraction is under way, if only the engine writes, and at most a file at
the staging path. -/
inductive During (sink : OutputSink) (opened : Session) : Session → Prop
  | start : During sink opened opened
  | step {t : Session} (step : Step) : During sink opened t →
      (∀ change, step = .storage change → StagesAt sink.stagingPath t.files (change t.files)) →
      (t.step step).output = some sink → During sink opened (t.step step)

theorem held_during (h : Held sink opened) (hpath : IsOutputPath sink.finalPath)
    (hduring : During sink opened t) :
    Held sink t ∧ StagesAt sink.stagingPath opened.files t.files := by
  induction hduring with
  | start => exact ⟨h, stagesAt_refl h.not_dir⟩
  | step step _ hstorage hheld ih =>
      obtain ⟨hbefore, hstages⟩ := ih
      obtain ⟨hslot, hstep⟩ := hbefore.step_files hpath hstorage hheld
      exact ⟨⟨slot_step hbefore.slot step, hslot, hheld, hstep.isDir hbefore.not_dir⟩,
        hstages.trans h.not_dir hstep⟩

end Session

end InstallerBrowser
