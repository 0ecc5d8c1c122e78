import InstallerBrowser.Proofs.Session.Moments

/-!
# InstallerBrowser.Proofs.Session.Transitions

The moves of the state.

`Move` is the table of the moves: from which states an operation or an event of the worker leads
where, and what it takes.  Replies are handled by the kind of their call and not by the state, so
that a reply makes no other move rests on the agreement of the state with the slot (`OnStage`).
Nothing else moves the state (`leads_step`, `OnStage.leads_onEvent`), and each move of the table is
made (`Move.state_step`, `Move.state_onEvent`).  The one from loading to ready asks for more than
its moment: the load was answered before, and the session has been loading ever since
(`Announced`).
-/

namespace InstallerBrowser.Session

variable {s : Session} {past : List Moment}

/-! ## The table -/

/-- A reply to an extraction can be read, and the output is given its name, or removed. -/
def Concludes (s : Session) (raw : String) : Prop :=
  (∃ status path, Reply.parseExtract raw = .ok (.completed status) ∧ s.commitOutput.2 = .ok path) ∨
    ∃ status, Reply.parseExtract raw = .ok (.aborted status) ∧ s.discardOutput.2 = .ok ()

/-- What moves the state of a session, and where to. -/
inductive Move (s : Session) : Happening → SessionState → Prop
  | load {file options} : s.state = .idle ∨ s.state = .ready ∨ s.state = .error →
      (s.load file options).2 = .ok () → Move s (.operation (.load file options)) .loading
  | listed {raw entries tree} : s.state = .loading → Reply.parseList raw = .ok entries →
      SelectionTree.build entries = .ok tree → Move s (.event (.reply .list (.ok raw))) .ready
  | extract : s.state = .ready → s.extract.2 = .ok () → Move s (.operation .extract) .extracting
  | abort : s.state = .extracting → s.abort.2 = true → Move s (.operation .abort) .aborting
  | extracted {raw} : s.state = .extracting ∨ s.state = .aborting → s.Concludes raw →
      Move s (.event (.reply .extract (.ok raw))) .ready
  | failed {event e} : s.state = .loading ∨ s.state = .extracting ∨ s.state = .aborting →
      (s.onEvent event).2 = [.failed e] → Move s (.event event) .error
  | discard : s.state = .ready ∨ s.state = .error → s.discardInstaller.2 = .ok () →
      Move s (.operation .discardInstaller) .idle

/-- Something leaves the state as it is, or makes a move of the table. -/
def Leads (s : Session) (happening : Happening) (state : SessionState) : Prop :=
  state = s.state ∨ Move s happening state

theorem canLoad_iff (state : SessionState) :
    state.canLoad = true ↔ state = .idle ∨ state = .ready ∨ state = .error := by
  cases state <;> simp [SessionState.canLoad]

theorem isLocked_iff (state : SessionState) :
    state.isLocked = true ↔ state = .loading ∨ state = .extracting ∨ state = .aborting := by
  cases state <;> simp [SessionState.isLocked]

theorem commitOutput_ok_iff {path : Option String} :
    s.commitOutput.2 = .ok path ↔ s.committed.2 = .ok path := by
  rw [commitOutput_eq]
  cases s.committed.2 <;> simp [Except.mapError]

theorem discardOutput_ok_iff : s.discardOutput.2 = .ok () ↔ s.discarded.2 = .ok () := by
  rw [discardOutput_eq]
  cases s.discarded.2 <;> simp [Except.mapError]

/-! ## Operations -/

theorem leads_load (s : Session) (file : String) (options : Options) :
    s.Leads (.operation (.load file options)) (s.load file options).1.state := by
  have hload := loadResult s file options
  generalize hr : s.load file options = r at hload
  cases hload with
  | busy _ | locked _ _ | refused _ _ _ => exact .inl rfl
  | sent log _ hstate _ =>
      exact .inr (.load ((canLoad_iff _).mp hstate) (congrArg Prod.snd hr))

theorem leads_extract (s : Session) : s.Leads (.operation .extract) s.extract.1.state := by
  have hextract := extractResult s
  generalize hr : s.extract = r at hextract
  cases hextract with
  | busy _ | unready _ _ | unopened _ _ _ | refused _ _ _ _ _ => exact .inl rfl
  | sent progress log _ htree _ _ =>
      exact .inr (.extract (state_of_editableTree htree) (congrArg Prod.snd hr))

theorem leads_abort (s : Session) : s.Leads (.operation .abort) s.abort.1.state := by
  rcases abort_cases s with heq | ⟨hstate, _, progress, log, heq⟩
  · exact .inl (by rw [heq])
  · have hmove : Move s (.operation .abort) .aborting := .abort hstate (congrArg Prod.snd heq)
    exact .inr (by rwa [heq])

theorem leads_discardInstaller (s : Session) :
    s.Leads (.operation .discardInstaller) s.discardInstaller.1.state := by
  rcases discardInstaller_cases s with ⟨e, heq⟩ | ⟨_, hstate, log, heq⟩
  · exact .inl (by rw [heq])
  · have hgiven : s.discardInstaller.2 = .ok () := congrArg Prod.snd heq
    rw [heq]
    cases h : s.state with
    | idle => exact .inl h.symm
    | ready => exact .inr (.discard (.inl h) hgiven)
    | error => exact .inr (.discard (.inr h) hgiven)
    | loading | extracting | aborting =>
        rw [h] at hstate
        cases hstate

theorem state_checkOptions (s : Session) (options : Options) :
    (s.checkOptions options).1.state = s.state := by
  have hcheck := checkResult s options
  generalize s.checkOptions options = r at hcheck
  cases hcheck with
  | busy _ | refused _ _ | sent _ _ => rfl

theorem leads_step (s : Session) (step : Step) (hpoll : step ≠ .poll) :
    s.Leads (.operation step) (s.step step).state := by
  cases step with
  | load file options => exact leads_load s file options
  | extract => exact leads_extract s
  | abort => exact leads_abort s
  | checkOptions options => exact .inl (state_checkOptions s options)
  | selectLanguage i => exact .inl (quiet_selectLanguage s i).state
  | discardInstaller => exact leads_discardInstaller s
  | changeTree op => exact .inl (quiet_changeTree s op).state
  | poll => exact absurd rfl hpoll
  | shutdown =>
      obtain ⟨_, files, output, heq⟩ := shutdown_eq s
      exact .inl (by rw [Session.step, heq])
  | worker action => exact .inl rfl
  | storage change => exact .inl rfl

/-! ## Events -/

/-- What is locked while a call of a kind is under way: everything but a check of the options. -/
theorem OnStage.of_failed {kind : CallKind} (h : OnStage s) (hslot : s.inFlight = some kind) :
    (s.state = .loading ∨ s.state = .extracting ∨ s.state = .aborting) ∧
        ({ s with inFlight := none }.afterFailure kind).state = .error ∨
      s.state.isLocked = false ∧
        ({ s with inFlight := none }.afterFailure kind).state = s.state := by
  cases kind with
  | load => exact .inl ⟨.inl (h.of_load hslot).1, rfl⟩
  | list => exact .inl ⟨.inl (h.of_list hslot).1, rfl⟩
  | extract => exact .inl ⟨.inr (h.of_extract hslot).1, rfl⟩
  | optionsDiffer => exact .inr ⟨(h.of_optionsDiffer hslot).1, rfl⟩

theorem OnStage.leads_failed {kind : CallKind} {event : WorkerEvent} {e : AppError} (h : OnStage s)
    (hslot : s.inFlight = some kind) (htold : (s.onEvent event).2 = [.failed e]) :
    s.Leads (.event event) ({ s with inFlight := none }.afterFailure kind).state := by
  rcases h.of_failed hslot with ⟨hlocked, hstate⟩ | ⟨_, hstate⟩
  · rw [hstate]
    exact .inr (.failed hlocked htold)
  · exact .inl hstate

theorem OnStage.leads_onEvent (h : OnStage s) {event : WorkerEvent}
    (hreply : ∀ kind result, event = .reply kind result → s.inFlight = some kind) :
    s.Leads (.event event) (s.onEvent event).1.state := by
  cases event with
  | notice notice =>
      obtain ⟨progress, log, heq, _⟩ := onNotice_cases s notice
      exact .inl (by rw [onEvent, heq])
  | stopped =>
      rcases onEvent_stopped_cases s with ⟨_, heq⟩ | ⟨kind, hslot, heq⟩
      · exact .inl (by rw [heq])
      · have hleads := h.leads_failed hslot (congrArg Prod.snd heq)
        rwa [heq]
  | reply kind result =>
      have hslot := hreply kind result rfl
      have hresult := replyResult s kind result
      generalize hr : s.onEvent (.reply kind result) = r at hresult
      have htold := congrArg Prod.snd hr
      cases hresult with
      | faulty _ => exact h.leads_failed hslot htold
      | loaded _ _ _ _ _ => exact .inl rfl
      | unlisted log _ _ => exact h.leads_failed hslot htold
      | listed log hparse hbuild => exact .inr (.listed (h.of_list hslot).1 hparse hbuild)
      | @completed _ status path text log hparse hcommit _ =>
          refine .inr (.extracted (h.of_extract hslot).1 (.inl ⟨status, path, hparse, ?_⟩))
          exact commitOutput_ok_iff.mpr hcommit
      | uncommitted _ _ | undiscarded _ _ =>
          exact .inr (.failed (.inr (h.of_extract hslot).1) htold)
      | @aborted _ status log hparse hdiscard =>
          refine .inr (.extracted (h.of_extract hslot).1 (.inr ⟨status, hparse, ?_⟩))
          exact discardOutput_ok_iff.mpr hdiscard
      | answered _ => exact .inl rfl

/-! ## Every move is made -/

/-- An event that tells a failure while something is locked moves the state to an error. -/
theorem OnStage.state_of_failed (h : OnStage s) {event : WorkerEvent} {e : AppError}
    (hreply : ∀ kind result, event = .reply kind result → s.inFlight = some kind)
    (hlocked : s.state.isLocked = true) (htold : (s.onEvent event).2 = [.failed e]) :
    (s.onEvent event).1.state = .error := by
  have hafter : ∀ {kind}, s.inFlight = some kind →
      ({ s with inFlight := none }.afterFailure kind).state = .error := by
    intro kind hslot
    rcases h.of_failed hslot with ⟨_, hstate⟩ | ⟨hunlocked, _⟩
    · exact hstate
    · cases hlocked.symm.trans hunlocked
  cases event with
  | notice notice =>
      obtain ⟨_, _, _, hnotice⟩ := onNotice_cases s notice
      rw [onEvent] at htold
      rcases hnotice with ⟨_, hnone⟩ | ⟨_, hnone⟩ | hnone <;> cases hnone.symm.trans htold
  | stopped =>
      rcases onEvent_stopped_cases s with ⟨_, heq⟩ | ⟨kind, hslot, heq⟩
      · rw [heq] at htold
        cases htold
      · rw [heq]
        exact hafter hslot
  | reply kind result =>
      have hslot := hreply kind result rfl
      have hresult := replyResult s kind result
      generalize s.onEvent (.reply kind result) = r at hresult htold
      cases hresult with
      | faulty _ | unlisted log _ _ => exact hafter hslot
      | uncommitted _ _ | undiscarded _ _ => rfl
      | loaded _ _ _ _ _ | listed _ _ _ | completed _ _ _ _ _ | aborted _ _ _ | answered _ =>
          cases htold

theorem state_of_listed {raw : String} {entries : List Entry} {tree : SelectionTree}
    (hparse : Reply.parseList raw = .ok entries) (hbuild : SelectionTree.build entries = .ok tree) :
    (s.onEvent (.reply .list (.ok raw))).1.state = .ready := by
  have hresult := replyResult s .list (.ok raw)
  generalize s.onEvent (.reply .list (.ok raw)) = r at hresult
  cases hresult with
  | faulty hfault =>
      cases hfault with
      | list h => cases h.symm.trans hparse
      | tree h hfault =>
          cases h.symm.trans hparse
          cases hfault.symm.trans hbuild
  | listed _ _ _ => rfl

theorem Concludes.state (h : s.Concludes raw) :
    (s.onEvent (.reply .extract (.ok raw))).1.state = .ready := by
  have hresult := replyResult s .extract (.ok raw)
  generalize s.onEvent (.reply .extract (.ok raw)) = r at hresult
  rw [Concludes] at h
  simp only [commitOutput_ok_iff, discardOutput_ok_iff] at h
  cases hresult with
  | faulty hfault =>
      cases hfault with
      | extract hfail =>
          rcases h with ⟨_, _, hparse, _⟩ | ⟨_, hparse, _⟩ <;> cases hfail.symm.trans hparse
  | completed _ _ _ _ _ | aborted _ _ _ => rfl
  | uncommitted hcompleted hfail =>
      rcases h with ⟨_, _, _, hcommit⟩ | ⟨_, hparse, _⟩
      · cases hfail.symm.trans hcommit
      · cases hcompleted.symm.trans hparse
  | undiscarded haborted hfail =>
      rcases h with ⟨_, _, hparse, _⟩ | ⟨_, _, hdiscard⟩
      · cases haborted.symm.trans hparse
      · cases hfail.symm.trans hdiscard

/-- Each move of the table is made when its cause is there. -/
theorem Move.state_step {step : Step} {state : SessionState} (h : Move s (.operation step) state) :
    (s.step step).state = state := by
  cases h with
  | @load file options _ hsent =>
      have hload := loadResult s file options
      rw [Session.step]
      generalize s.load file options = r at hload hsent
      cases hload with
      | busy _ | locked _ _ | refused _ _ _ => cases hsent
      | sent _ _ _ _ => rfl
  | extract _ hsent =>
      have hextract := extractResult s
      rw [Session.step]
      generalize s.extract = r at hextract hsent
      cases hextract with
      | busy _ | unready _ _ | unopened _ _ _ | refused _ _ _ _ _ => cases hsent
      | sent _ _ _ _ _ _ => rfl
  | abort _ hfired =>
      rcases abort_cases s with heq | ⟨_, _, progress, log, heq⟩
      · cases (congrArg Prod.snd heq).symm.trans hfired
      · rw [Session.step, heq]
  | discard _ hgiven =>
      rcases discardInstaller_cases s with ⟨e, heq⟩ | ⟨_, _, log, heq⟩
      · cases (congrArg Prod.snd heq).symm.trans hgiven
      · rw [Session.step, heq]

theorem Move.state_onEvent {event : WorkerEvent} {state : SessionState}
    (h : Move s (.event event) state) (hstage : OnStage s)
    (hreply : ∀ kind result, event = .reply kind result → s.inFlight = some kind) :
    (s.onEvent event).1.state = state := by
  cases h with
  | listed _ hparse hbuild => exact state_of_listed hparse hbuild
  | extracted _ hconcludes => exact hconcludes.state
  | failed hlocked htold =>
      exact hstage.state_of_failed hreply ((isLocked_iff _).mpr hlocked) htold

/-! ## Along a run -/

/-- The state that is reached by what has happened. -/
def reached (past : List Moment) : SessionState :=
  match past.getLast? with
  | some m => m.next.state
  | none => .idle

@[simp] theorem reached_concat (past : List Moment) (m : Moment) :
    reached (past ++ [m]) = m.next.state := by
  rw [reached, List.getLast?_concat]

/-- A load was answered with metadata, and the session has been loading ever since. -/
def Announced (past : List Moment) : Prop :=
  ∃ before s raw metadata since,
    past = before ++ ⟨s, .event (.reply .load (.ok raw))⟩ :: since ∧ s.state = .loading ∧
      Reply.parseLoad raw = .ok metadata ∧ ∀ m ∈ since, m.session.state = .loading

theorem Announced.concat (h : Announced past) {m : Moment} (hm : m.session.state = .loading) :
    Announced (past ++ [m]) := by
  obtain ⟨before, s, raw, metadata, since, rfl, hstate, hparse, hsince⟩ := h
  refine ⟨before, s, raw, metadata, since ++ [m], ?_, hstate, hparse, ?_⟩
  · rw [List.append_assoc, List.cons_append]
  · rw [List.forall_mem_append]
    exact ⟨hsince, List.forall_mem_singleton.mpr hm⟩

/-- The past explains where a session is: its state was reached, and a list is asked for after a
load was answered. -/
structure Explained (past : List Moment) (s : Session) : Prop where
  stage : OnStage s
  state : s.state = reached past
  announced : s.inFlight = some .list → Announced past

theorem along_explained : Along Explained where
  drained := fun _ _ h => ⟨h.stage, h.state, h.announced⟩
  operation := by
    intro past s step hpoll hslot h
    refine ⟨onStage_step step hslot h.stage,
      (reached_concat past ⟨s, .operation step⟩).symm, fun hlist => ?_⟩
    cases slotMoved_step step hpoll with
    | kept _ hkept =>
        have hlisting := hkept.symm.trans hlist
        exact (h.announced hlisting).concat (h.stage.of_list hlisting).1
    | taken _ _ _ hkind htaken => exact absurd (Option.some.inj (htaken.symm.trans hlist)) hkind
  event := by
    intro past s event hreply h
    refine ⟨stable_onStage.handled s event hreply h.stage,
      (reached_concat past ⟨s, .event event⟩).symm, ?_⟩
    have hturn := turn_onEvent hreply
    generalize hr : s.onEvent event = r at hturn
    intro hlist
    cases hturn with
    | idle _ hkept _ =>
        have hlisting := hkept.symm.trans hlist
        exact (h.announced hlisting).concat (h.stage.of_list hlisting).1
    | @listing raw metadata _ hslot _ hparse _ =>
        exact ⟨past, s, raw, metadata, [], rfl, (h.stage.of_load hslot).1, hparse, by simp⟩
    | replied _ hfree _ | stopped _ hfree => cases hfree.symm.trans hlist

/-- While nothing is locked, no event of the worker moves the state. -/
theorem OnStage.still_onEvent (h : OnStage s) {event : WorkerEvent}
    (hreply : ∀ kind result, event = .reply kind result → s.inFlight = some kind)
    (hunlocked : s.state = .idle ∨ s.state = .ready ∨ s.state = .error) :
    (s.onEvent event).1.state = s.state := by
  rcases h.leads_onEvent hreply with hstate | hmove
  · exact hstate
  · generalize (s.onEvent event).1.state = state at hmove
    cases hmove with
    | listed hstate _ _ => simp [hstate] at hunlocked
    | extracted hstate _ => rcases hstate with hstate | hstate <;> simp [hstate] at hunlocked
    | failed hstate _ => rcases hstate with hstate | hstate | hstate <;> simp [hstate] at hunlocked

/-- What the table says of a moment, with all that has happened before it. -/
structure Specified (earlier : List Moment) (m : Moment) : Prop where
  /-- The state is the one that what happened before has led to. -/
  state : m.session.state = reached earlier
  /-- The state stays as it is, or makes a move of the table. -/
  leads : m.next.state = m.session.state ∨ Move m.session m.happening m.next.state
  /-- A move whose cause is there is made. -/
  moves : ∀ state, Move m.session m.happening state → m.next.state = state
  /-- No reply, notice or death of the worker moves a session that is idle, ready or in error. -/
  still : ∀ event, m.happening = .event event →
    m.session.state = .idle ∨ m.session.state = .ready ∨ m.session.state = .error →
    m.next.state = m.session.state
  /-- The way from loading to ready goes through the reply to the load. -/
  announced : m.session.state = .loading → m.next.state = .ready → Announced earlier

theorem specified_operation (step : Step) (hpoll : step ≠ .poll) (h : Explained past s) :
    Specified past ⟨s, .operation step⟩ where
  state := h.state
  leads := leads_step s step hpoll
  moves := fun _ hmove => hmove.state_step
  still := nofun
  announced := fun (hloading : s.state = .loading) (hready : (s.step step).state = .ready) => by
    -- No operation leads to a session that is ready.
    rcases leads_step s step hpoll with hstate | hmove
    · cases hloading.symm.trans (hstate.symm.trans hready)
    · rw [hready] at hmove
      cases hmove

theorem specified_event {event : WorkerEvent}
    (hreply : ∀ kind result, event = .reply kind result → s.inFlight = some kind)
    (h : Explained past s) : Specified past ⟨s, .event event⟩ where
  state := h.state
  leads := h.stage.leads_onEvent hreply
  moves := fun _ hmove => hmove.state_onEvent h.stage hreply
  still := fun _ _ => h.stage.still_onEvent hreply
  announced := fun (hloading : s.state = .loading) (hready : (s.onEvent event).1.state = .ready) => by
    rcases h.stage.leads_onEvent hreply with hstate | hmove
    · cases hloading.symm.trans (hstate.symm.trans hready)
    · rw [hready] at hmove
      cases hmove with
      | listed _ _ _ => exact h.announced (hreply _ _ rfl)
      | extracted hstate _ => simp [hloading] at hstate

/-- **Only the specified transitions**: along every run, each operation and each event of the worker
leaves the state as it is or makes a move of the table, and a move whose cause is there is made; no
event moves a session that is idle, ready or in error; and a session that was loading is ready only
after the load was answered and the list behind it. -/
theorem transitions_run (files : FileStore) (log : Log) (dir : String) (steps : List Step) :
    ((new files log dir).run steps).state = reached ((new files log dir).moments steps) ∧
      ∀ earlier m later, (new files log dir).moments steps = earlier ++ m :: later →
        Specified earlier m := by
  have hslot := slot_new files log dir
  have hnew : Explained [] (new files log dir) := ⟨onStage_new files log dir, rfl, nofun⟩
  exact ⟨(along_explained.moments hslot hnew steps).state, along_explained.split
    (fun _ _ step hpoll h => specified_operation step hpoll h)
    (fun _ _ _ hreply h => specified_event hreply h) hslot hnew steps⟩

/-- The reply to a list moves a session from loading to ready, and a check of the options that fails
then leaves it ready. -/
theorem transitions_run_failedCheck :
    let steps := loadSteps ++
      [.checkOptions {}, .worker .take, .worker (.reply (.error (.engine "busy"))), .poll]
    let moments := (new emptyFiles (.new .live) "out").moments steps
    (∃ earlier m later, moments = earlier ++ m :: later ∧ m.session.state = .loading ∧
        m.next.state = .ready ∧ Move m.session m.happening .ready ∧ Announced earlier) ∧
      ∃ earlier m later event, moments = earlier ++ m :: later ∧ m.happening = .event event ∧
        m.session.state = .ready ∧ m.told.length = 1 ∧ m.next.state = .ready := by
  intro steps moments
  obtain ⟨_, hrun⟩ := transitions_run emptyFiles (.new .live) "out" steps
  have hlisted : moments.any (fun m => m.session.state = .loading ∧ m.next.state = .ready) = true := by
    decide +kernel
  have hchecked : moments.any (fun m => m.session.state = .ready ∧ m.told.length = 1) = true := by
    decide +kernel
  rw [List.any_eq_true] at hlisted hchecked
  obtain ⟨m, hmem, hm⟩ := hlisted
  obtain ⟨m', hmem', hm'⟩ := hchecked
  obtain ⟨earlier, later, heq⟩ := List.append_of_mem hmem
  obtain ⟨earlier', later', heq'⟩ := List.append_of_mem hmem'
  obtain ⟨hloading, hready⟩ := of_decide_eq_true hm
  obtain ⟨hready', htold⟩ := of_decide_eq_true hm'
  refine ⟨⟨earlier, m, later, heq, hloading, hready, ?_, ?_⟩, earlier', m', later', ?_⟩
  · have hleads := (hrun earlier m later heq).leads
    rw [hloading, hready] at hleads
    exact hleads.resolve_left nofun
  · exact (hrun earlier m later heq).announced hloading hready
  · cases hhappening : m'.happening with
    | operation step =>
        rw [Moment.told, hhappening] at htold
        cases htold
    | event event =>
        have hnext := (hrun earlier' m' later' heq').still event hhappening (.inr (.inl hready'))
        exact ⟨event, heq', rfl, hready', htold, hnext.trans hready'⟩

end InstallerBrowser.Session
