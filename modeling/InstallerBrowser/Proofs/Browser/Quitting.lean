import InstallerBrowser.Proofs.Browser.Steady
import InstallerBrowser.Proofs.Session.AbortSignal

/-!
# InstallerBrowser.Proofs.Browser.Quitting

When the program ends, and what it leaves.

Two events end the program: the action for it while no extraction is under way, and the answer to
the question that the action asks otherwise (`shouldQuit_step_iff`).  The question stays open when
the extraction it is about is over, and other dialogs may take its place; all the same an extraction
is never given up but by that answer.  Either way the session is shut down, so that no output is held
any more, and an extraction that was under way is told to stop (`quits_run`).
-/

namespace InstallerBrowser

namespace Session

/-- A session that was shut down holds no output. -/
theorem output_shutdown (s : Session) : s.shutdown.output = none := by
  unfold shutdown
  split
  all_goals
    simp only
    split
    · next hnone => exact hnone
    · rfl

theorem abortFired_shutdown {s : Session} (h : s.inFlight = some .extract) :
    s.shutdown.worker.abortFired = true := by
  rw [worker_shutdown, if_pos h]
  rfl

end Session

namespace Browser

variable {b : Browser} {event : Event}

/-! ## The events that end the program -/

/-- An event is the action to quit while no extraction is under way, or the answer to the question
that is asked otherwise. -/
def Quits (b : Browser) (event : Event) : Prop :=
  b.action? event = some .quit ∧ b.isExtracting = false ∨ ConfirmsQuit b event

theorem step_of_confirmsQuit (h : ConfirmsQuit b event) : b.step event = b.closeDialog.forceQuit := by
  obtain ⟨k, title, message, button, rfl, hdialog, hcode⟩ := h
  have hcommand : ∃ command, Dialog.confirmCommand? k.code = some command ∧
      (command = .accept ∨ command = .confirm ∧ button = .ok) := by
    rcases hcode with hcode | hcode | ⟨hcode, hbutton⟩
    · exact ⟨.accept, by rw [hcode]; rfl, .inl rfl⟩
    · exact ⟨.accept, by rw [hcode]; rfl, .inl rfl⟩
    · exact ⟨.confirm, by rw [hcode]; rfl, .inr ⟨rfl, hbutton⟩⟩
  obtain ⟨command, hcommand, hpress⟩ := hcommand
  simp only [step, key, hdialog, Dialog.command?, hcommand]
  rcases hpress with rfl | ⟨rfl, rfl⟩ <;> rfl

/-- An event that ends the program shuts the session down. -/
theorem Quits.step (h : Quits b event) :
    (b.step event).session = b.session.shutdown ∧ (b.step event).shouldQuit = true := by
  rcases h with ⟨haction, hidle⟩ | hconfirms
  · have hstep : b.step event = b.forceQuit := by
      rw [step_of_action haction, execute, quit, if_neg (by rw [hidle]; exact Bool.false_ne_true)]
    rw [hstep]
    exact ⟨rfl, rfl⟩
  · rw [step_of_confirmsQuit hconfirms]
    exact ⟨rfl, rfl⟩

theorem shouldQuit_toggleOption (b : Browser) (f : OptionField) :
    (b.toggleOption f).shouldQuit = b.shouldQuit := by
  unfold toggleOption
  split
  · rfl
  · simp only
    split <;> exact (changes_followDrift _).steady.quitting

theorem shouldQuit_resetOptions (b : Browser) : b.resetOptions.shouldQuit = b.shouldQuit := by
  unfold resetOptions
  split
  · rfl
  · split
    · rfl
    · exact (changes_followDrift _).steady.quitting

/-- The program ends by the events that end it, and goes on ending. -/
theorem shouldQuit_step_iff (b : Browser) (event : Event) :
    (b.step event).shouldQuit = true ↔ b.shouldQuit = true ∨ Quits b event := by
  constructor
  · intro hquit
    have hresponse := response b event
    generalize b.step event = c at hresponse hquit
    cases hresponse with
    | steady hsteady => exact .inl (hsteady.quitting ▸ hquit)
    | quits haction hidle => exact .inr (.inl ⟨haction, hidle⟩)
    | confirmed hconfirms => exact .inr (.inr hconfirms)
    | toggled f => exact .inl (b.shouldQuit_toggleOption f ▸ hquit)
    | reset => exact .inl (b.shouldQuit_resetOptions ▸ hquit)
  · rintro (hquit | hquits)
    · have hresponse := response b event
      generalize b.step event = c at hresponse
      cases hresponse with
      | steady hsteady => exact hsteady.quitting.trans hquit
      | quits _ _ | confirmed _ => rfl
      | toggled f => exact (b.shouldQuit_toggleOption f).trans hquit
      | reset => exact b.shouldQuit_resetOptions.trans hquit
    · exact hquits.step.2

/-! ## Runs -/

/-- The program has ended once an event of the run was one that ends it. -/
theorem shouldQuit_run_iff (b : Browser) (events : List Event) :
    (b.run events).shouldQuit = true ↔ b.shouldQuit = true ∨
      ∃ before event after, events = before ++ event :: after ∧ Quits (b.run before) event := by
  induction events generalizing b with
  | nil => simp [run]
  | cons first rest ih =>
      rw [run_cons, ih, shouldQuit_step_iff, or_assoc]
      refine or_congr_right ⟨?_, ?_⟩
      · rintro (hfirst | ⟨before, event, after, rfl, hquits⟩)
        · exact ⟨[], first, rest, rfl, hfirst⟩
        · exact ⟨first :: before, event, after, rfl, hquits⟩
      · rintro ⟨before, event, after, heq, hquits⟩
        cases before with
        | nil =>
            cases heq
            exact .inl hquits
        | cons _ before =>
            cases heq
            exact .inr ⟨before, event, after, rfl, hquits⟩

theorem isExtracting_of_state
    (h : b.session.state = .extracting ∨ b.session.state = .aborting) : b.isExtracting = true := by
  rcases h with h | h <;> rw [isExtracting, h] <;> rfl

/-- **Quitting gives up no extraction unasked**: a run has ended the program exactly if one of its
events was one to end it.  An event that does so while an extraction runs or is being aborted is
the answer, with its first button, to the question whether to quit; and whenever the program ends,
no output is held any more, and the abort signal is fired if an extraction was in flight. -/
theorem quits_run (config : Config) (env : Config.Environment) (dir : String) (files : FileStore)
    (events : List Event) :
    let start := new config env dir files
    ((start.run events).shouldQuit = true ↔
        ∃ before event after, events = before ++ event :: after ∧ Quits (start.run before) event) ∧
      ∀ before event after, events = before ++ event :: after →
        let b := start.run before
        let c := b.step event
        b.shouldQuit = false → c.shouldQuit = true →
          (b.session.state = .extracting ∨ b.session.state = .aborting → ConfirmsQuit b event) ∧
            c.session.output = none ∧
            (b.session.inFlight = some .extract → c.session.worker.abortFired = true) := by
  intro start
  refine ⟨?_, fun before event after _ => ?_⟩
  · rw [shouldQuit_run_iff]
    exact or_iff_right Bool.false_ne_true
  · intro b c hbefore hafter
    have hquits : Quits b event := ((shouldQuit_step_iff b event).mp hafter).resolve_left
      (by rw [hbefore]; exact Bool.false_ne_true)
    have hsession : c.session = b.session.shutdown := hquits.step.1
    refine ⟨fun hstate => ?_, ?_, fun hflight => ?_⟩
    · refine hquits.resolve_left fun ⟨_, hidle⟩ => ?_
      exact Bool.false_ne_true (hidle.symm.trans (isExtracting_of_state hstate))
    · rw [hsession]
      exact Session.output_shutdown _
    · rw [hsession]
      exact Session.abortFired_shutdown hflight

/-- An extraction is started and the key to quit pressed, which asks. -/
def quitEvents : List Event :=
  setupEvents ++ [.key { code := .char 'x' }, .key { code := .char 'q' }]

/-- The answer ends the program; it gives up the output and fires the signal. -/
theorem quits_run_quitEvents :
    let b := (new {} atHome "out" setupFiles).run quitEvents
    let c := b.step (.key { code := .char 'y' })
    b.shouldQuit = false ∧ c.shouldQuit = true ∧ b.session.state = .extracting ∧
      b.session.inFlight = some .extract ∧ b.session.output ≠ none ∧
      ConfirmsQuit b (.key { code := .char 'y' }) ∧ c.session.output = none ∧
      c.session.worker.abortFired = true := by
  intro b c
  have hbefore : b.shouldQuit = false := by decide +kernel
  have hafter : c.shouldQuit = true := by decide +kernel
  have hstate : b.session.state = .extracting := by decide +kernel
  have hflight : b.session.inFlight = some .extract := by decide +kernel
  have hheld : b.session.output ≠ none := by decide +kernel
  obtain ⟨hconfirms, houtput, habort⟩ :=
    (quits_run {} atHome "out" setupFiles (quitEvents ++ [.key { code := .char 'y' }])).2
      quitEvents _ [] rfl hbefore hafter
  exact ⟨hbefore, hafter, hstate, hflight, hheld, hconfirms (.inl hstate), houtput, habort hflight⟩

end Browser

end InstallerBrowser
