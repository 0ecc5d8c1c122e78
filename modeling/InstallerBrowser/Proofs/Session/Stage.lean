import InstallerBrowser.Proofs.Session.Slot

/-!
# InstallerBrowser.Proofs.Session.Stage

State, slot and pending file agree.

`Stage` lists the ways in which the state, the slot and the pending file of a session go together.
It leaves the output out, which a shutdown takes away in the midst of an extraction, and is kept by
every step, a shutdown included (`onStage_step`). `InOrder` adds the agreement of the slot with
the worker.
-/

namespace InstallerBrowser.Session

variable {s t : Session} {kind : CallKind}

/-! ## Stages -/

/-- How the state, the slot and the pending file go together. -/
inductive Stage : SessionState → Option CallKind → Option String → Prop
  | resting {state} : state.isLocked = false → Stage state none none
  | checking {state} : state.isLocked = false → Stage state (some .optionsDiffer) none
  | loading (file) : Stage .loading (some .load) (some file)
  | listing (file) : Stage .loading (some .list) (some file)
  | extracting : Stage .extracting (some .extract) none
  | aborting : Stage .aborting (some .extract) none

/-- The state, the slot and the pending file of a session go together. -/
def OnStage (s : Session) : Prop := Stage s.state s.inFlight s.pendingFile

theorem onStage_new (files : FileStore) (log : Log) (dir : String) :
    OnStage (new files log dir) := .resting rfl

theorem OnStage.congr (h : OnStage s) (hstate : t.state = s.state)
    (hslot : t.inFlight = s.inFlight) (hfile : t.pendingFile = s.pendingFile) : OnStage t := by
  rw [OnStage, hstate, hslot, hfile]
  exact h

/-- A free slot means that nothing is locked and no file is being loaded. -/
theorem OnStage.of_free (h : OnStage s) (hfree : s.inFlight = none) :
    s.state.isLocked = false ∧ s.pendingFile = none := by
  rw [OnStage, hfree] at h
  generalize s.state = state, s.pendingFile = file at h
  cases h with
  | resting hstate => exact ⟨hstate, rfl⟩

theorem OnStage.of_optionsDiffer (h : OnStage s) (hslot : s.inFlight = some .optionsDiffer) :
    s.state.isLocked = false ∧ s.pendingFile = none := by
  rw [OnStage, hslot] at h
  generalize s.state = state, s.pendingFile = file at h
  cases h with
  | checking hstate => exact ⟨hstate, rfl⟩

theorem OnStage.of_load (h : OnStage s) (hslot : s.inFlight = some .load) :
    s.state = .loading ∧ ∃ file, s.pendingFile = some file := by
  rw [OnStage, hslot] at h
  generalize s.state = state, s.pendingFile = file at h
  cases h with
  | loading file => exact ⟨rfl, file, rfl⟩

theorem OnStage.of_list (h : OnStage s) (hslot : s.inFlight = some .list) :
    s.state = .loading ∧ ∃ file, s.pendingFile = some file := by
  rw [OnStage, hslot] at h
  generalize s.state = state, s.pendingFile = file at h
  cases h with
  | listing file => exact ⟨rfl, file, rfl⟩

theorem OnStage.of_extract (h : OnStage s) (hslot : s.inFlight = some .extract) :
    (s.state = .extracting ∨ s.state = .aborting) ∧ s.pendingFile = none := by
  rw [OnStage, hslot] at h
  generalize s.state = state, s.pendingFile = file at h
  cases h with
  | extracting => exact ⟨.inl rfl, rfl⟩
  | aborting => exact ⟨.inr rfl, rfl⟩

/-- While nothing is locked, the only call that can be under way is a check of the options. -/
theorem OnStage.of_unlocked (h : OnStage s) (hstate : s.state.isLocked = false) :
    (s.inFlight = none ∨ s.inFlight = some .optionsDiffer) ∧ s.pendingFile = none := by
  rw [OnStage] at h
  generalize s.state = state, s.inFlight = slot, s.pendingFile = file at h hstate
  cases h with
  | resting _ => exact ⟨.inl rfl, rfl⟩
  | checking _ => exact ⟨.inr rfl, rfl⟩
  | loading _ | listing _ | extracting | aborting => cases hstate

/-! ## Handling what was sent -/

/-- A call that fails leaves a session at rest, whatever the kind in the slot was. -/
theorem OnStage.afterFailure (h : OnStage s) (hslot : s.inFlight = some kind) :
    OnStage ({ s with inFlight := none }.afterFailure kind) := by
  cases kind with
  | load => exact .resting rfl
  | list => exact .resting rfl
  | extract =>
      simp only [OnStage, Session.afterFailure, (h.of_extract hslot).2]
      exact .resting rfl
  | optionsDiffer =>
      simp only [OnStage, Session.afterFailure, (h.of_optionsDiffer hslot).2]
      exact .resting (h.of_optionsDiffer hslot).1

theorem OnStage.onReply (h : OnStage s) (hslot : s.inFlight = some kind)
    (result : Except AppError String) : OnStage (s.onEvent (.reply kind result)).1 := by
  -- The slot says at which stage the call was made, which the handling never asks.
  have hreply := replyResult s kind result
  generalize s.onEvent (.reply kind result) = r at hreply
  cases hreply with
  | faulty _ => exact h.afterFailure hslot
  | loaded _ _ _ _ _ =>
      obtain ⟨hstate, file, hfile⟩ := h.of_load hslot
      simp only [OnStage, hstate, hfile]
      exact .listing file
  | unlisted log _ _ => exact h.afterFailure hslot
  | listed log _ _ => exact .resting rfl
  | completed _ _ _ _ _ | uncommitted _ _ | aborted _ _ _ | undiscarded _ _ =>
      simp only [OnStage, (h.of_extract hslot).2]
      exact .resting rfl
  | answered _ =>
      obtain ⟨hstate, hfile⟩ := h.of_optionsDiffer hslot
      simp only [OnStage, hfile]
      exact .resting hstate

theorem stable_onStage : Stable OnStage :=
  stable_of_replies (fun _ h => h) (fun _ _ _ h => h)
    (fun _ _ result hslot h => h.onReply hslot result) fun _ _ hslot h => h.afterFailure hslot

/-! ## Operations -/

theorem OnStage.load (h : OnStage s) (file : String) (options : Options) :
    OnStage (s.load file options).1 := by
  have hload := loadResult s file options
  generalize s.load file options = r at hload
  cases hload with
  | busy _ => exact h
  | locked _ _ => exact h
  | refused _ _ _ => exact h
  | sent log _ _ _ => exact .loading file

theorem OnStage.extract (h : OnStage s) : OnStage s.extract.1 := by
  have hextract := extractResult s
  generalize s.extract = r at hextract
  cases hextract with
  | busy _ => exact h
  | unready _ _ => exact h
  | unopened _ _ _ => exact h
  | refused log _ _ _ _ => exact h
  | sent progress log hfree _ _ _ =>
      simp only [OnStage, (h.of_free hfree).2]
      exact .extracting

theorem OnStage.abort (h : OnStage s) : OnStage s.abort.1 := by
  rcases abort_cases s with heq | ⟨_, hslot, progress, log, heq⟩
  · rw [heq]
    exact h
  · rw [heq]
    simp only [OnStage, hslot, (h.of_extract hslot).2]
    exact .aborting

theorem OnStage.checkOptions (h : OnStage s) (options : Options) :
    OnStage (s.checkOptions options).1 := by
  have hcheck := checkResult s options
  generalize s.checkOptions options = r at hcheck
  cases hcheck with
  | busy _ => exact h
  | refused _ _ => exact h
  | sent hfree _ =>
      simp only [OnStage, (h.of_free hfree).2]
      exact .checking (h.of_free hfree).1

theorem OnStage.discardInstaller (h : OnStage s) : OnStage s.discardInstaller.1 := by
  rcases discardInstaller_cases s with ⟨e, heq⟩ | ⟨hfree, _, log, heq⟩
  · rw [heq]
    exact h
  · rw [heq]
    simp only [OnStage, clearInstaller, hfree]
    exact .resting rfl

/-- What a shutdown changes: the abort signal, the files and the output. -/
theorem shutdown_eq (s : Session) : ∃ abortFired files output,
    s.shutdown = { s with worker := { s.worker with abortFired }, files, output } := by
  unfold shutdown
  split
  all_goals
    simp only
    split
  all_goals exact ⟨_, _, _, rfl⟩

theorem onStage_step (step : Step) (hslot : Slot s []) (h : OnStage s) :
    OnStage (s.step step) := by
  cases step with
  | load file options => exact h.load file options
  | extract => exact h.extract
  | abort => exact h.abort
  | checkOptions options => exact h.checkOptions options
  | selectLanguage i =>
      rcases selectLanguage_cases s i with heq | ⟨_, heq⟩
      · rw [Session.step, heq]
        exact h
      · rw [Session.step, heq]
        exact h
  | discardInstaller => exact h.discardInstaller
  | changeTree op =>
      rcases changeTree_cases s op with heq | ⟨tree, _, heq⟩
      · rw [Session.step, heq]
        exact h
      · rw [Session.step, heq]
        exact h
  | poll => exact stable_onStage.poll hslot h
  | shutdown =>
      obtain ⟨_, files, output, heq⟩ := shutdown_eq s
      rw [Session.step, heq]
      exact h
  | worker action => exact h
  | storage change => exact h

/-! ## The worker -/

/-- What a step that polls nothing can do to the worker: the abort signal changes, a call is sent,
or the engine's side acts. -/
inductive Driven (w : Worker) : Worker → Prop
  | signalled (abortFired) : Driven w { w with abortFired }
  | sent (call) : Driven w (w.send call).1
  | acted (action) : Driven w (w.act action)

theorem driven_step (step : Step) (hpoll : step ≠ .poll) : Driven s.worker (s.step step).worker := by
  cases step with
  | load file options =>
      have hload := loadResult s file options
      rw [Session.step]
      generalize s.load file options = r at hload
      cases hload with
      | busy _ | locked _ _ | refused _ _ _ => exact .signalled s.worker.abortFired
      | sent _ _ _ _ => exact .sent (.load file options)
  | extract =>
      have hextract := extractResult s
      rw [Session.step]
      generalize s.extract = r at hextract
      cases hextract with
      | busy _ | unready _ _ | unopened _ _ _ => exact .signalled s.worker.abortFired
      | refused _ _ _ _ _ | sent _ _ _ _ _ _ => exact .sent _
  | abort =>
      rw [Session.step]
      rcases abort_cases s with heq | ⟨_, _, progress, log, heq⟩
      · rw [heq]
        exact .signalled s.worker.abortFired
      · rw [heq]
        exact .signalled true
  | checkOptions options =>
      have hcheck := checkResult s options
      rw [Session.step]
      generalize s.checkOptions options = r at hcheck
      cases hcheck with
      | busy _ | refused _ _ => exact .signalled s.worker.abortFired
      | sent _ _ => exact .sent (.optionsDiffer options)
  | selectLanguage i =>
      rw [Session.step, (quiet_selectLanguage s i).worker]
      exact .signalled s.worker.abortFired
  | discardInstaller =>
      rw [Session.step]
      rcases discardInstaller_cases s with ⟨e, heq⟩ | ⟨_, _, log, heq⟩
      · rw [heq]
        exact .signalled s.worker.abortFired
      · rw [heq]
        exact .signalled s.worker.abortFired
  | changeTree op =>
      rw [Session.step, (quiet_changeTree s op).worker]
      exact .signalled s.worker.abortFired
  | poll => exact absurd rfl hpoll
  | shutdown =>
      obtain ⟨abortFired, files, output, heq⟩ := shutdown_eq s
      rw [Session.step, heq]
      exact .signalled abortFired
  | worker action => exact .acted action
  | storage change => exact .signalled s.worker.abortFired

theorem Driven.dead {w w' : Worker} (h : Driven w w') (hdead : w.alive = false) :
    w'.alive = false := by
  cases h with
  | signalled _ => exact hdead
  | sent call => exact (Worker.alive_send w call).trans hdead
  | acted action =>
      cases halive : (w.act action).alive with
      | true => cases ((Worker.acted_act w action).alive_before halive).symm.trans hdead
      | false => rfl

/-- No step brings a dead worker back. -/
theorem dead_step (step : Step) (h : s.worker.alive = false) :
    (s.step step).worker.alive = false := by
  by_cases hpoll : step = .poll
  · rw [hpoll, Session.step, poll_eq, (worker_onEvents _ _).1]
    exact (Worker.alive_poll _).trans h
  · exact (driven_step step hpoll).dead h

/-- A worker that lives after a step has lived before it. -/
theorem alive_of_step {step : Step} (h : (s.step step).worker.alive = true) :
    s.worker.alive = true := by
  cases hdead : s.worker.alive with
  | true => rfl
  | false => cases (dead_step step hdead).symm.trans h

/-! ## Both agreements -/

/-- The slot tells what is owed, and goes together with the state and the pending file. -/
structure InOrder (s : Session) : Prop where
  slot : Slot s []
  stage : OnStage s

theorem inOrder_new (files : FileStore) (log : Log) (dir : String) :
    InOrder (new files log dir) := ⟨slot_new files log dir, onStage_new files log dir⟩

theorem InOrder.step (h : InOrder s) (step : Step) : InOrder (s.step step) :=
  ⟨slot_step h.slot step, onStage_step step h.slot h.stage⟩

theorem InOrder.noted (h : InOrder s) (log : Log) (files : FileStore) :
    InOrder { s with log, files } := ⟨h.slot.congr rfl rfl, h.stage⟩

end InstallerBrowser.Session
