import InstallerBrowser.Proofs.Session.Slot

/-!
# InstallerBrowser.Proofs.Session.Phase

State, slot and output agree.

Handling a reply looks at the kind of its call and never at the state, so what it leaves is right
only if the two go together.  `Phase` lists the ways in which the state, the slot and the output
of a session go together; every step but a shutdown leads from one to another, also in the midst
of a poll (`stable_inPhase`), and `state_run` reads off what each state says.
-/

namespace InstallerBrowser.Session

variable {s t : Session} {kind : CallKind}

/-! ## Phases -/

/-- How the state, the slot and the output go together. -/
inductive Phase : SessionState → Option CallKind → Option OutputSink → Prop
  | resting {state} : state.isLocked = false → Phase state none none
  | checking {state} : state.isLocked = false → Phase state (some .optionsDiffer) none
  | loading : Phase .loading (some .load) none
  | listing : Phase .loading (some .list) none
  | extracting (sink) : Phase .extracting (some .extract) (some sink)
  | aborting (sink) : Phase .aborting (some .extract) (some sink)

/-- The state, the slot and the output of a session go together. -/
def InPhase (s : Session) : Prop := Phase s.state s.inFlight s.output

theorem inPhase_new (files : FileStore) (log : Log) (dir : String) :
    InPhase (new files log dir) := .resting rfl

theorem InPhase.congr (h : InPhase s) (hquiet : Quiet s t) : InPhase t := by
  rw [InPhase, hquiet.state, hquiet.inFlight, hquiet.output]
  exact h

/-- A free slot means that nothing is locked and no output is held. -/
theorem InPhase.of_free (h : InPhase s) (hfree : s.inFlight = none) :
    s.state.isLocked = false ∧ s.output = none := by
  rw [InPhase, hfree] at h
  generalize s.state = state, s.output = output at h
  cases h with
  | resting hstate => exact ⟨hstate, rfl⟩

theorem InPhase.of_load (h : InPhase s) (hslot : s.inFlight = some .load) :
    s.state = .loading ∧ s.output = none := by
  rw [InPhase, hslot] at h
  generalize s.state = state, s.output = output at h
  cases h with
  | loading => exact ⟨rfl, rfl⟩

theorem InPhase.of_list (h : InPhase s) (hslot : s.inFlight = some .list) :
    s.state = .loading ∧ s.output = none := by
  rw [InPhase, hslot] at h
  generalize s.state = state, s.output = output at h
  cases h with
  | listing => exact ⟨rfl, rfl⟩

theorem InPhase.of_extract (h : InPhase s) (hslot : s.inFlight = some .extract) :
    (s.state = .extracting ∨ s.state = .aborting) ∧ ∃ sink, s.output = some sink := by
  rw [InPhase, hslot] at h
  generalize s.state = state, s.output = output at h
  cases h with
  | extracting sink => exact ⟨.inl rfl, sink, rfl⟩
  | aborting sink => exact ⟨.inr rfl, sink, rfl⟩

theorem InPhase.of_optionsDiffer (h : InPhase s) (hslot : s.inFlight = some .optionsDiffer) :
    s.state.isLocked = false ∧ s.output = none := by
  rw [InPhase, hslot] at h
  generalize s.state = state, s.output = output at h
  cases h with
  | checking hstate => exact ⟨hstate, rfl⟩

/-! ## Handling what was sent -/

/-- A call that fails leaves a session at rest, whatever the kind in the slot was. -/
theorem InPhase.afterFailure (h : InPhase s) (hslot : s.inFlight = some kind) :
    InPhase ({ s with inFlight := none }.afterFailure kind) := by
  cases kind with
  | load =>
      rw [InPhase, Session.afterFailure, (h.of_load hslot).2]
      exact .resting rfl
  | list =>
      rw [InPhase, Session.afterFailure, (h.of_list hslot).2]
      exact .resting rfl
  | extract => exact .resting rfl
  | optionsDiffer =>
      rw [InPhase, Session.afterFailure, (h.of_optionsDiffer hslot).2]
      exact .resting (h.of_optionsDiffer hslot).1

theorem InPhase.onReply (h : InPhase s) (hslot : s.inFlight = some kind)
    (result : Except AppError String) : InPhase (s.onEvent (.reply kind result)).1 := by
  -- The slot says in which state the call was made, which the handling never asks.
  have hreply := replyResult s kind result
  generalize s.onEvent (.reply kind result) = r at hreply
  cases hreply with
  | faulty _ => exact h.afterFailure hslot
  | loaded _ _ _ _ _ =>
      obtain ⟨hstate, houtput⟩ := h.of_load hslot
      simp only [InPhase, hstate, houtput]
      exact .listing
  | unlisted log _ _ => exact h.afterFailure hslot
  | listed log _ _ =>
      simp only [InPhase, (h.of_list hslot).2]
      exact .resting rfl
  | completed _ _ _ _ _ => exact .resting rfl
  | uncommitted _ _ => exact .resting rfl
  | aborted _ _ _ => exact .resting rfl
  | undiscarded _ _ => exact .resting rfl
  | answered _ =>
      obtain ⟨hstate, houtput⟩ := h.of_optionsDiffer hslot
      simp only [InPhase, houtput]
      exact .resting hstate

theorem stable_inPhase : Stable InPhase :=
  stable_of_replies (fun _ h => h) (fun _ _ _ h => h)
    (fun _ _ result hslot h => h.onReply hslot result) fun _ _ hslot h => h.afterFailure hslot

/-! ## Operations -/

theorem InPhase.load (h : InPhase s) (file : String) (options : Options) :
    InPhase (s.load file options).1 := by
  have hload := loadResult s file options
  generalize s.load file options = r at hload
  cases hload with
  | busy _ => exact h
  | locked _ _ => exact h
  | refused _ _ _ => exact h
  | sent log hfree _ _ =>
      simp only [InPhase, clearInstaller, (h.of_free hfree).2]
      exact .loading

theorem InPhase.extract (h : InPhase s) : InPhase s.extract.1 := by
  have hextract := extractResult s
  generalize s.extract = r at hextract
  cases hextract with
  | busy _ => exact h
  | unready _ _ => exact h
  | unopened _ _ _ => exact h
  | refused log _ _ _ _ => exact h
  | sent progress log _ _ _ _ => exact .extracting _

theorem InPhase.abort (h : InPhase s) : InPhase s.abort.1 := by
  rcases abort_cases s with heq | ⟨_, hslot, progress, log, heq⟩
  · rw [heq]
    exact h
  · obtain ⟨_, sink, houtput⟩ := h.of_extract hslot
    rw [heq]
    simp only [InPhase, hslot, houtput]
    exact .aborting sink

theorem InPhase.checkOptions (h : InPhase s) (options : Options) :
    InPhase (s.checkOptions options).1 := by
  have hcheck := checkResult s options
  generalize s.checkOptions options = r at hcheck
  cases hcheck with
  | busy _ => exact h
  | refused _ _ => exact h
  | sent hfree _ =>
      simp only [InPhase, (h.of_free hfree).2]
      exact .checking (h.of_free hfree).1

theorem InPhase.discardInstaller (h : InPhase s) : InPhase s.discardInstaller.1 := by
  rcases discardInstaller_cases s with ⟨e, heq⟩ | ⟨hfree, _, log, heq⟩
  · rw [heq]
    exact h
  · rw [heq]
    simp only [InPhase, clearInstaller, hfree, (h.of_free hfree).2]
    exact .resting rfl

theorem inPhase_step (step : Step) (hstep : step ≠ .shutdown) (hslot : Slot s [])
    (h : InPhase s) : InPhase (s.step step) := by
  cases step with
  | load file options => exact h.load file options
  | extract => exact h.extract
  | abort => exact h.abort
  | checkOptions options => exact h.checkOptions options
  | selectLanguage i => exact h.congr (quiet_selectLanguage s i)
  | discardInstaller => exact h.discardInstaller
  | changeTree op => exact h.congr (quiet_changeTree s op)
  | poll => exact stable_inPhase.poll hslot h
  | shutdown => exact absurd rfl hstep
  | worker action => exact h
  | storage change => exact h

/-- The phase of a session after any steps but a shutdown. -/
theorem inPhase_run (files : FileStore) (log : Log) (dir : String) {steps : List Step}
    (hsteps : .shutdown ∉ steps) : InPhase ((new files log dir).run steps) := by
  have hallowed : ∀ step ∈ steps, step ≠ .shutdown := fun _ hmem heq => hsteps (heq ▸ hmem)
  exact holds_run (fun _ step hstep hslot => inPhase_step step hstep hslot) hallowed
    (slot_new files log dir) (inPhase_new files log dir)

/-! ## What a state says -/

/-- **State, slot and output agree**: after any steps but a shutdown, a session is loading exactly
while a load or a list is under way; it extracts or aborts exactly while an extraction is under
way, and that is exactly while an output is held; and in every other state no call is under way
but a check of the options, and no output is held. -/
theorem state_run (files : FileStore) (log : Log) (dir : String) (steps : List Step)
    (hsteps : .shutdown ∉ steps) :
    let s := (new files log dir).run steps
    (s.state = .loading ↔ s.inFlight = some .load ∨ s.inFlight = some .list) ∧
      (s.state = .extracting ∨ s.state = .aborting ↔ s.inFlight = some .extract) ∧
      (s.state = .extracting ∨ s.state = .aborting ↔ ∃ sink, s.output = some sink) ∧
      (s.state = .idle ∨ s.state = .ready ∨ s.state = .error →
        (s.inFlight = none ∨ s.inFlight = some .optionsDiffer) ∧ s.output = none) := by
  intro s
  have h : Phase s.state s.inFlight s.output := inPhase_run files log dir hsteps
  generalize s.state = state, s.inFlight = slot, s.output = output at h
  cases h with
  | resting hstate => cases state <;> simp_all [SessionState.isLocked]
  | checking hstate => cases state <;> simp_all [SessionState.isLocked]
  | loading => simp
  | listing => simp
  | extracting sink => simp
  | aborting sink => simp

/-- An extraction that was asked to stop is still under way, and its output is still held. -/
theorem state_run_aborting :
    let steps := loadSteps ++ [.extract, .abort]
    let s := (new emptyFiles (.new .live) "out").run steps
    .shutdown ∉ steps ∧ s.state = .aborting ∧ s.inFlight = some .extract ∧
      ∃ sink, s.output = some sink := by
  intro steps s
  have hsteps : .shutdown ∉ steps := by simp [steps, loadSteps]
  have hstate : s.state = .aborting := by decide +kernel
  obtain ⟨_, hslot, houtput, _⟩ := state_run emptyFiles (.new .live) "out" steps hsteps
  exact ⟨hsteps, hstate, hslot.mp (.inr hstate), houtput.mp (.inr hstate)⟩

end InstallerBrowser.Session
