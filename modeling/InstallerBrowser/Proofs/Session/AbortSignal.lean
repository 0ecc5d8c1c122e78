import InstallerBrowser.Proofs.Session.Transitions

/-!
# InstallerBrowser.Proofs.Session.AbortSignal

The abort signal is meant for one extraction.

The signal goes past the queue of calls, and does not say which extraction it is meant for.
`LastSent` tells which one was sent last, and what has happened since.  At each moment an extraction
is sent, which lowers the signal, or the signal is fired, or it stays (`Signalled`).  So the
extraction that a worker has is the one sent last, and the signal is fired exactly if something has
fired it since (`Pursued`).  As an abort is heeded only while a session extracts, and ends that,
there is at most one of them for an extraction.
-/

namespace InstallerBrowser

namespace Worker

variable {w w' : Worker} {call other : EngineCall}

/-- A worker has a call that waits, or that is under way. -/
def Has (w : Worker) (call : EngineCall) : Prop := call ∈ w.current.toList ++ w.calls

theorem not_has (h : w.unanswered = []) (call : EngineCall) : ¬ w.Has call := by
  rw [unanswered, List.map_eq_nil_iff] at h
  rw [Has, h]
  exact List.not_mem_nil

theorem has_send (h : w.alive = true) : (w.send call).1.Has other ↔ w.Has other ∨ other = call := by
  rw [send_of_alive h]
  simp [Has, or_assoc]

theorem has_send_of_dead (h : w.alive = false) : (w.send call).1.Has other ↔ w.Has other := by
  rw [send_of_dead h]
  rfl

theorem abortFired_send (w : Worker) (call : EngineCall) :
    (w.send call).1.abortFired = w.abortAfterSend call := by
  cases h : w.alive with
  | true => rw [send_of_alive h]
  | false => rw [send_of_dead h]

theorem abortAfterSend_of_ne (hkind : call.kind ≠ .extract) :
    w.abortAfterSend call = w.abortFired := by
  rw [abortAfterSend, bne_iff_ne.mpr hkind, Bool.and_true]

/-- Only an extraction lowers the signal. -/
theorem abortAfterSend_extract (w : Worker) (request : ExtractionRequest) :
    w.abortAfterSend (.extract request) = false := Bool.and_false _

theorem Acted.abortFired (h : Acted w w') : w'.abortFired = w.abortFired := by
  cases h <;> rfl

theorem abortFired_poll (w : Worker) : w.poll.1.abortFired = w.abortFired := by
  unfold poll
  split <;> rfl

theorem has_poll (w : Worker) (call : EngineCall) : w.poll.1.Has call ↔ w.Has call := by
  unfold poll
  split <;> rfl

/-- The engine's side comes by no call on its own. -/
theorem Acted.has (h : Acted w w') (hcall : w'.Has call) : w.Has call := by
  cases h with
  | nothing | told _ _ => exact hcall
  | took _ hcurrent hcalls =>
      rw [Has, hcurrent, hcalls]
      exact hcall
  | answered _ _ _ => exact List.mem_append_right _ hcall
  | died _ => exact absurd hcall (by simp [Has])

end Worker

namespace Session

variable {s : Session} {past since : List Moment} {m : Moment} {request : ExtractionRequest}

/-! ## What concerns the signal -/

namespace Moment

/-- At a moment an extraction is sent. -/
inductive Sends : Moment → ExtractionRequest → Prop
  | mk {s : Session} {request : ExtractionRequest} : s.extract.2 = .ok () →
      s.extract.1.worker.calls = s.worker.calls ++ [.extract request] →
      Sends ⟨s, .operation .extract⟩ request

/-- Whether a moment is an abort that is heeded. -/
def aborts (m : Moment) : Bool :=
  match m.happening with
  | .operation .abort => m.session.abort.2
  | _ => false

/-- Whether the signal is fired at a moment: by an abort that is heeded, or by a shutdown in the
midst of an extraction. -/
def stops (m : Moment) : Bool :=
  match m.happening with
  | .operation .abort => m.session.abort.2
  | .operation .shutdown => m.session.inFlight == some .extract
  | _ => false

theorem Sends.stops (h : m.Sends request) : m.stops = false := by
  cases h
  rfl

theorem not_sends_of_stops (h : m.stops = true) (request : ExtractionRequest) :
    ¬ m.Sends request := fun hsends => nomatch hsends.stops.symm.trans h

/-- An abort is heeded while a session extracts, which it then does no longer. -/
theorem state_of_aborts (h : m.aborts = true) :
    m.session.state = .extracting ∧ m.next.state = .aborting := by
  obtain ⟨s, operation | event⟩ := m
  · cases operation with
    | abort =>
        rcases abort_cases s with heq | ⟨hstate, _, progress, log, heq⟩
        · rw [Moment.aborts, heq] at h
          cases h
        · have hnext : Moment.next ⟨s, .operation .abort⟩ = s.abort.1 := rfl
          rw [hnext, heq]
          exact ⟨hstate, rfl⟩
    | _ => cases h
  · cases h

end Moment

/-- What is sent is an extraction of what is chosen. -/
theorem exists_sends (h : s.extract.2 = .ok ()) :
    ∃ request, Moment.Sends ⟨s, .operation .extract⟩ request := by
  have hextract := extractResult s
  generalize hr : s.extract = r at hextract h
  cases hextract with
  | busy _ | unready _ _ | unopened _ _ _ | refused _ _ _ _ _ => cases h
  | @sent tree files sink progress log _ _ _ halive =>
      refine ⟨s.extractionRequest tree sink, .mk (congrArg Prod.snd hr) ?_⟩
      rw [hr, Worker.send_of_alive halive]

/-! ## The extraction that was sent last -/

/-- An extraction was sent in the past, and none after it: what has happened since. -/
def LastSent (past : List Moment) (request : ExtractionRequest) (since : List Moment) : Prop :=
  ∃ before m, past = before ++ m :: since ∧ m.Sends request ∧
    ∀ later ∈ since, ∀ other, ¬ later.Sends other

theorem lastSent_concat (past : List Moment) (h : m.Sends request) :
    LastSent (past ++ [m]) request [] := ⟨past, m, rfl, h, by simp⟩

theorem LastSent.concat (h : LastSent past request since) (hm : ∀ other, ¬ m.Sends other) :
    LastSent (past ++ [m]) request (since ++ [m]) := by
  obtain ⟨before, first, rfl, hfirst, hsince⟩ := h
  refine ⟨before, first, by simp, hfirst, ?_⟩
  rw [List.forall_mem_append]
  exact ⟨hsince, List.forall_mem_singleton.mpr hm⟩

/-- With one moment more, that one sends the extraction, or it has happened since. -/
theorem LastSent.of_concat (h : LastSent (past ++ [m]) request since) :
    since = [] ∧ m.Sends request ∨
      ∃ earlier, since = earlier ++ [m] ∧ LastSent past request earlier ∧
        ∀ other, ¬ m.Sends other := by
  obtain ⟨before, first, heq, hfirst, hsince⟩ := h
  rcases List.eq_nil_or_concat since with rfl | ⟨earlier, last, rfl⟩
  · obtain ⟨_, hlast⟩ := List.append_inj' heq rfl
    cases hlast
    exact .inl ⟨rfl, hfirst⟩
  · rw [List.concat_eq_append, ← List.cons_append, ← List.append_assoc] at heq
    obtain ⟨hpast, hlast⟩ := List.append_inj' heq rfl
    cases hlast
    rw [List.concat_eq_append, List.forall_mem_append] at hsince
    refine .inr ⟨earlier, List.concat_eq_append, ⟨before, first, hpast, hfirst, hsince.1⟩, ?_⟩
    exact hsince.2 _ List.mem_cons_self

/-! ## One moment -/

/-- What a moment does to the signal and to the extractions that the worker has. -/
inductive Signalled (m : Moment) : Prop
  | sent {request : ExtractionRequest} : m.Sends request → m.next.worker.abortFired = false →
      (∀ other, m.next.worker.Has (.extract other) → other = request) → Signalled m
  | fired : m.stops = true → m.next.worker = m.session.worker.abort → Signalled m
  | kept : m.stops = false → (∀ other, ¬ m.Sends other) →
      m.next.worker.abortFired = m.session.worker.abortFired →
      (∀ other, m.next.worker.Has (.extract other) → m.session.worker.Has (.extract other)) →
      Signalled m
  /-- A dead worker, which has no call, lowers the signal as it refuses an extraction. -/
  | refused : (∀ other, ¬ m.Sends other) → (∀ call, ¬ m.next.worker.Has call) → Signalled m

theorem signalled_of_worker (hstops : m.stops = false) (hsends : ∀ other, ¬ m.Sends other)
    (h : m.next.worker = m.session.worker) : Signalled m :=
  .kept hstops hsends (by rw [h]) (fun _ hother => by rwa [h] at hother)

/-- A call of another kind leaves the signal and the extractions alone. -/
theorem signalled_of_send {call : EngineCall} (hstops : m.stops = false)
    (hsends : ∀ other, ¬ m.Sends other) (hkind : call.kind ≠ .extract)
    (h : m.next.worker = (m.session.worker.send call).1) : Signalled m := by
  refine .kept hstops hsends ?_ fun other hother => ?_
  · rw [h, Worker.abortFired_send, Worker.abortAfterSend_of_ne hkind]
  · rw [h] at hother
    cases halive : m.session.worker.alive with
    | true =>
        rcases (Worker.has_send halive).mp hother with hbefore | rfl
        · exact hbefore
        · exact absurd rfl hkind
    | false => exact (Worker.has_send_of_dead halive).mp hother

theorem signalled_extract (hslot : Slot s []) : Signalled ⟨s, .operation .extract⟩ := by
  have hextract := extractResult s
  generalize hr : s.extract = r at hextract
  have hnext : (Moment.next ⟨s, .operation .extract⟩).worker = r.1.worker := by
    rw [← hr]
    rfl
  have hunsent : r.2 ≠ .ok () → ∀ other, ¬ Moment.Sends ⟨s, .operation .extract⟩ other := by
    rintro hne other ⟨hok, _⟩
    exact hne (hr ▸ hok)
  cases hextract with
  | busy _ | unready _ _ | unopened _ _ _ =>
      exact signalled_of_worker rfl (hunsent nofun) hnext
  | refused log _ _ _ hdead =>
      refine .refused (hunsent nofun) fun call hcall => ?_
      rw [hnext] at hcall
      exact Worker.not_has (hslot.unanswered_eq_nil hdead) call
        ((Worker.has_send_of_dead hdead).mp hcall)
  | @sent tree files sink progress log hfree _ _ halive =>
      -- Nothing is owed while the slot is free, so the worker has no extraction but this one.
      have hnone : s.worker.unanswered = [] :=
        (List.append_eq_nil_iff.mp (hslot.nothing_owed hfree).2).2
      have hsends : Moment.Sends ⟨s, .operation .extract⟩ (s.extractionRequest tree sink) := by
        refine .mk (congrArg Prod.snd hr) ?_
        rw [hr, Worker.send_of_alive halive]
      refine .sent hsends ?_ ?_
      · rw [hnext, Worker.abortFired_send, Worker.abortAfterSend_extract]
      · intro other hother
        rw [hnext] at hother
        rcases (Worker.has_send halive).mp hother with hbefore | hnew
        · exact absurd hbefore (Worker.not_has hnone _)
        · cases hnew
          rfl

/-- An extraction is sent while nothing is under way, with the signal down. -/
theorem Slot.extract_ok (h : Slot s []) (hsent : s.extract.2 = .ok ()) :
    s.worker.outstanding = [] ∧ s.extract.1.worker.abortFired = false ∧
      ∃ request, s.extract.1.worker.calls = [.extract request] := by
  have hextract := extractResult s
  generalize s.extract = r at hextract hsent
  cases hextract with
  | busy _ | unready _ _ | unopened _ _ _ | refused _ _ _ _ _ => cases hsent
  | @sent tree files sink progress log hfree _ _ halive =>
      have hnone : s.worker.outstanding = [] := (h.nothing_owed hfree).2
      have hcalls : s.worker.calls = [] := by
        have hunanswered := (List.append_eq_nil_iff.mp hnone).2
        rw [Worker.unanswered, List.map_eq_nil_iff] at hunanswered
        exact (List.append_eq_nil_iff.mp hunanswered).2
      refine ⟨hnone, ?_, s.extractionRequest tree sink, ?_⟩
      · rw [Worker.abortFired_send, Worker.abortAfterSend_extract]
      · rw [Worker.send_of_alive halive, hcalls]
        rfl

/-- A shutdown fires the signal in the midst of an extraction. -/
theorem worker_shutdown (s : Session) :
    s.shutdown.worker = if s.inFlight = some .extract then s.worker.abort else s.worker := by
  unfold shutdown
  split
  all_goals
    simp only
    split
  all_goals rfl

theorem signalled_step (step : Step) (hpoll : step ≠ .poll) (hslot : Slot s []) :
    Signalled ⟨s, .operation step⟩ := by
  cases step with
  | load file options =>
      have hload := loadResult s file options
      generalize hr : s.load file options = r at hload
      have hnext : (Moment.next ⟨s, .operation (.load file options)⟩).worker = r.1.worker := by
        rw [← hr]
        rfl
      cases hload with
      | busy _ | locked _ _ | refused _ _ _ => exact signalled_of_worker rfl nofun hnext
      | sent log _ _ _ =>
          refine signalled_of_send rfl nofun ?_ hnext
          exact nofun
  | extract => exact signalled_extract hslot
  | abort =>
      have hnext : (Moment.next ⟨s, .operation .abort⟩).worker = s.abort.1.worker := rfl
      have hstops : Moment.stops ⟨s, .operation .abort⟩ = s.abort.2 := rfl
      rcases abort_cases s with heq | ⟨_, _, progress, log, heq⟩
      · rw [heq] at hnext hstops
        exact signalled_of_worker hstops nofun hnext
      · rw [heq] at hnext hstops
        exact .fired hstops hnext
  | checkOptions options =>
      have hcheck := checkResult s options
      generalize hr : s.checkOptions options = r at hcheck
      have hnext : (Moment.next ⟨s, .operation (.checkOptions options)⟩).worker = r.1.worker := by
        rw [← hr]
        rfl
      cases hcheck with
      | busy _ | refused _ _ => exact signalled_of_worker rfl nofun hnext
      | sent _ _ =>
          refine signalled_of_send rfl nofun ?_ hnext
          exact nofun
  | selectLanguage i => exact signalled_of_worker rfl nofun (quiet_selectLanguage s i).worker
  | discardInstaller =>
      refine signalled_of_worker rfl nofun (show s.discardInstaller.1.worker = s.worker from ?_)
      rcases discardInstaller_cases s with ⟨e, heq⟩ | ⟨_, _, log, heq⟩
      · rw [heq]
      · rw [heq]
        rfl
  | changeTree op => exact signalled_of_worker rfl nofun (quiet_changeTree s op).worker
  | poll => exact absurd rfl hpoll
  | shutdown =>
      have hnext : (Moment.next ⟨s, .operation .shutdown⟩).worker = s.shutdown.worker := rfl
      rw [worker_shutdown] at hnext
      by_cases hextract : s.inFlight = some .extract
      · rw [if_pos hextract] at hnext
        exact .fired (by simp [Moment.stops, hextract]) hnext
      · rw [if_neg hextract] at hnext
        exact signalled_of_worker (by simp [Moment.stops, hextract]) nofun hnext
  | worker action =>
      have hacted := Worker.acted_act s.worker action
      exact .kept rfl nofun hacted.abortFired fun _ hother => hacted.has hother
  | storage change => exact signalled_of_worker rfl nofun rfl

theorem signalled_onEvent (s : Session) (event : WorkerEvent) : Signalled ⟨s, .event event⟩ := by
  rcases worker_onEvent s event with hworker | hworker
  · exact signalled_of_worker rfl nofun hworker
  · refine signalled_of_send rfl nofun ?_ hworker
    exact nofun

/-! ## Along a run -/

/-- What the past of a session says of its signal. -/
structure Pursued (past : List Moment) (s : Session) : Prop where
  stage : OnStage s
  /-- A session that extracts has sent an extraction. -/
  extracting : s.state = .extracting → ∃ request since, LastSent past request since
  /-- No abort was heeded since the last extraction while the session still extracts, and at most
  one in any case. -/
  once : ∀ request since, LastSent past request since →
    since.countP Moment.aborts ≤ if s.state = .extracting then 0 else 1
  /-- The extraction that the worker has is the last one, and the signal is fired exactly if
  something has fired it since. -/
  known : ∀ request, s.worker.Has (.extract request) → ∃ since, LastSent past request since ∧
    (s.worker.abortFired = true ↔ ∃ m ∈ since, m.stops = true)

theorem pursued_new (files : FileStore) (log : Log) (dir : String) :
    Pursued [] (new files log dir) where
  stage := onStage_new files log dir
  extracting := nofun
  once := fun request since h => by
    obtain ⟨before, m, heq, _⟩ := h
    exact absurd heq.symm (List.append_ne_nil_of_right_ne_nil before (List.cons_ne_nil m since))
  known := fun request h => nomatch h

/-- The signal is still the one of the last extraction after one moment more. -/
theorem Pursued.known_next (h : Pursued past m.session) (hsignal : Signalled m)
    (hhas : m.next.worker.Has (.extract request)) : ∃ since, LastSent (past ++ [m]) request since ∧
      (m.next.worker.abortFired = true ↔ ∃ later ∈ since, later.stops = true) := by
  cases hsignal with
  | sent hsends hlowered honly =>
      rw [honly request hhas, hlowered]
      exact ⟨[], lastSent_concat past hsends, by simp⟩
  | fired hstops hworker =>
      rw [hworker] at hhas ⊢
      obtain ⟨since, hlast, _⟩ := h.known request hhas
      refine ⟨since ++ [m], hlast.concat (Moment.not_sends_of_stops hstops), ?_⟩
      exact iff_of_true rfl ⟨m, List.mem_concat_self, hstops⟩
  | kept hstops hsends hsignal hkept =>
      obtain ⟨since, hlast, hfired⟩ := h.known request (hkept request hhas)
      refine ⟨since ++ [m], hlast.concat hsends, ?_⟩
      rw [hsignal, hfired]
      simp [or_and_right, exists_or, hstops]
  | refused _ hnone => exact absurd hhas (hnone _)

theorem Pursued.next (h : Pursued past m.session) (hstage : OnStage m.next)
    (hsignal : Signalled m)
    (hstate : m.next.state = .extracting →
      m.session.state = .extracting ∨ ∃ request, m.Sends request) :
    Pursued (past ++ [m]) m.next where
  stage := hstage
  extracting := fun hnext => by
    by_cases hsends : ∃ request, m.Sends request
    · obtain ⟨request, hsends⟩ := hsends
      exact ⟨request, [], lastSent_concat past hsends⟩
    · obtain ⟨request, since, hlast⟩ := h.extracting ((hstate hnext).resolve_right hsends)
      exact ⟨request, since ++ [m], hlast.concat (not_exists.mp hsends)⟩
  once := fun request since hlast => by
    rcases hlast.of_concat with ⟨rfl, _⟩ | ⟨earlier, rfl, hearlier, hunsent⟩
    · exact Nat.zero_le _
    · have hbefore := h.once request earlier hearlier
      rw [List.countP_append, List.countP_singleton]
      by_cases haborts : m.aborts = true
      · obtain ⟨hstate, hnext⟩ := Moment.state_of_aborts haborts
        rw [if_pos hstate] at hbefore
        simp [haborts, hnext, Nat.le_zero.mp hbefore]
      · rw [if_neg haborts, Nat.add_zero]
        refine Nat.le_trans hbefore ?_
        by_cases hnext : m.next.state = .extracting
        · have hkept := (hstate hnext).resolve_right (not_exists.mpr hunsent)
          rw [if_pos hkept]
          exact Nat.zero_le _
        · rw [if_neg hnext]
          split
          · exact Nat.zero_le 1
          · exact Nat.le_refl 1
  known := fun _ hhas => h.known_next hsignal hhas

/-- An extraction is sent by the operation that makes a session extract. -/
theorem extracting_step {step : Step} (hpoll : step ≠ .poll)
    (hnext : (s.step step).state = .extracting) :
    s.state = .extracting ∨ ∃ request, Moment.Sends ⟨s, .operation step⟩ request := by
  rcases leads_step s step hpoll with hstate | hmove
  · exact .inl (hstate.symm.trans hnext)
  · rw [hnext] at hmove
    cases hmove with
    | extract _ hsent => exact .inr (exists_sends hsent)

theorem OnStage.extracting_onEvent {event : WorkerEvent} (h : OnStage s)
    (hreply : ∀ kind result, event = .reply kind result → s.inFlight = some kind)
    (hnext : (s.onEvent event).1.state = .extracting) : s.state = .extracting := by
  rcases h.leads_onEvent hreply with hstate | hmove
  · exact hstate.symm.trans hnext
  · rw [hnext] at hmove
    cases hmove

theorem along_pursued : Along Pursued where
  drained := by
    intro past s h
    have hsignal : s.drained.worker.abortFired = s.worker.abortFired := s.worker.abortFired_poll
    have hhas : ∀ call, s.drained.worker.Has call ↔ s.worker.Has call := s.worker.has_poll
    refine ⟨h.stage, h.extracting, h.once, fun request hrequest => ?_⟩
    rw [hsignal]
    exact h.known request ((hhas _).mp hrequest)
  operation := fun past s step hpoll hslot h =>
    h.next (onStage_step step hslot h.stage) (signalled_step step hpoll hslot)
      (extracting_step hpoll)
  event := fun past s event hreply h =>
    h.next (stable_onStage.handled s event hreply h.stage) (signalled_onEvent s event)
      fun hnext => .inl (h.stage.extracting_onEvent hreply hnext)

/-- **No stale abort**: after any steps, an extraction that the worker executes is the one that was
sent last, and it sees the signal fired exactly if an abort was heeded since, or the session was
shut down in its midst.  Nothing is under way when an extraction is sent, and the signal is down
then.  An abort is heeded only while an extraction is under way, and only the first one since that
was sent. -/
theorem abort_run (files : FileStore) (log : Log) (dir : String) (steps : List Step) :
    let s := (new files log dir).run steps
    let past := (new files log dir).moments steps
    (∀ request, s.worker.current = some (.extract request) → ∃ since,
        LastSent past request since ∧
          (s.worker.abortFired = true ↔ ∃ m ∈ since, m.stops = true)) ∧
      (s.extract.2 = .ok () → s.worker.outstanding = [] ∧
        s.extract.1.worker.abortFired = false ∧
        ∃ request, s.extract.1.worker.calls = [.extract request]) ∧
      (s.abort.2 = true → s.inFlight = some .extract ∧
        (s.worker.alive = true → s.worker.outstanding = [.extract]) ∧
        ∃ request since, LastSent past request since ∧ ∀ m ∈ since, m.aborts = false) ∧
      ∀ request since, LastSent past request since → since.countP Moment.aborts ≤ 1 := by
  intro s past
  have hslot : Slot s [] := slot_run files log dir steps
  have h : Pursued past s :=
    along_pursued.moments (slot_new files log dir) (pursued_new files log dir) steps
  refine ⟨fun request hcurrent => ?_, fun hsent => ?_, fun haborted => ?_,
    fun request since hlast => ?_⟩
  · refine h.known request ?_
    rw [Worker.Has, hcurrent]
    exact List.mem_cons_self
  · exact hslot.extract_ok hsent
  · rcases abort_cases s with heq | ⟨hstate, hinFlight, progress, log, heq⟩
    · rw [heq] at haborted
      cases haborted
    · obtain ⟨request, since, hlast⟩ := h.extracting hstate
      have hnone := h.once request since hlast
      rw [if_pos hstate, Nat.le_zero, List.countP_eq_zero] at hnone
      refine ⟨hinFlight, fun halive => ?_, request, since, hlast, ?_⟩
      · rw [show s.worker.outstanding = s.inFlight.toList from hslot.owed_eq halive, hinFlight]
        rfl
      · intro m hm
        exact Bool.eq_false_iff.mpr (hnone m hm)
  · refine Nat.le_trans (h.once request since hlast) ?_
    split
    · exact Nat.zero_le 1
    · exact Nat.le_refl 1

/-- An extraction that is aborted, and a second one that the worker executes. -/
def secondExtractionSteps : List Step :=
  loadSteps ++
    [ .extract, .worker .take, .abort
    , .worker (.reply (.ok "\x7b\"aborted\":true\x7d")), .poll, .extract, .worker .take ]

/-- The second extraction does not see the abort of the first one, and can still be aborted. -/
theorem abort_run_secondExtraction :
    let s := (new emptyFiles (.new .live) "out").run secondExtractionSteps
    let past := (new emptyFiles (.new .live) "out").moments secondExtractionSteps
    past.any Moment.stops = true ∧ s.abort.2 = true ∧ s.inFlight = some .extract ∧
      ∃ request since, s.worker.current = some (.extract request) ∧ LastSent past request since ∧
        ∀ m ∈ since, m.stops = false := by
  intro s past
  obtain ⟨hseen, _, habort, _⟩ :=
    abort_run emptyFiles (.new .live) "out" secondExtractionSteps
  have hpast : past.any Moment.stops = true := by decide +kernel
  have haborts : s.abort.2 = true := by decide +kernel
  have hsignal : s.worker.abortFired = false := by decide +kernel
  have hkind : s.worker.current.map EngineCall.kind = some .extract := by decide +kernel
  obtain ⟨request, hcurrent⟩ : ∃ request, s.worker.current = some (.extract request) := by
    generalize s.worker.current = current at hkind
    match current, hkind with
    | some (.extract request), _ => exact ⟨request, rfl⟩
  obtain ⟨since, hlast, hfired⟩ := hseen request hcurrent
  refine ⟨hpast, haborts, (habort haborts).1, request, since, hcurrent, hlast, fun m hm => ?_⟩
  rw [← Bool.not_eq_true]
  intro hstops
  cases hsignal.symm.trans (hfired.mpr ⟨m, hm, hstops⟩)

end Session

end InstallerBrowser
