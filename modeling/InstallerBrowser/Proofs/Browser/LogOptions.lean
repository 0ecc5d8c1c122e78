import InstallerBrowser.Proofs.Browser.Steady

/-!
# InstallerBrowser.Proofs.Browser.LogOptions

The log and the live options.

Whether lines go into a buffer, and whether debug lines are kept, is said twice: by the live options
and by the log itself.  The log is set up by the options when a browser starts and whenever an option
that concerns it changes (`applyLogOptions`), and nothing else sets it up, so the two never part
(`followsOptions_run`).
-/

namespace InstallerBrowser

namespace Log

@[simp] theorem setting_setMode (l : Log) (mode : LogMode) :
    (l.setMode mode).setting = { l.setting with mode } := by
  by_cases hmode : mode = l.mode
  · rw [setMode, if_pos hmode.symm, hmode]
    rfl
  · rw [setMode_of_ne hmode]
    rfl

theorem accepts_debug (l : Log) : l.accepts .debug = l.debugEnabled := by
  rw [accepts, bne_self_eq_false, Bool.false_or]

end Log

namespace Browser

variable {b c : Browser}

/-- The log is set up as the live options say. -/
structure FollowsOptions (b : Browser) : Prop where
  mode : b.log.setting.mode = logModeFor b.options.live
  debugEnabled : b.log.setting.debugEnabled = b.options.live.enableDebug

theorem FollowsOptions.steady (h : FollowsOptions b) (hsteady : Steady b c) : FollowsOptions c where
  mode := by rw [hsteady.setting, hsteady.live, h.mode]
  debugEnabled := by rw [hsteady.setting, hsteady.live, h.debugEnabled]

/-- However the log was set up before, the options set it up anew. -/
theorem followsOptions_applyLogOptions (b : Browser) : FollowsOptions b.applyLogOptions := by
  have hsetting : b.applyLogOptions.log.setting =
      { mode := logModeFor b.options.live
        debugEnabled := b.options.live.enableDebug
        now := b.log.now } := Log.setting_setMode _ _
  exact ⟨congrArg (·.mode) hsetting, congrArg (·.debugEnabled) hsetting⟩

/-- An option that does not concern the log may change without it. -/
theorem FollowsOptions.toggle (h : FollowsOptions b) {f : OptionField} (hf : concernsLog f = false) :
    FollowsOptions { b with options := b.options.toggle f } := by
  cases f with
  | enableDebug | logsToFile => cases hf
  | excludeTemps | languageFilter | collision => exact ⟨h.mode, h.debugEnabled⟩

theorem FollowsOptions.toggleOption (h : FollowsOptions b) (f : OptionField) :
    FollowsOptions (b.toggleOption f) := by
  unfold Browser.toggleOption
  split
  · exact h.steady (changes_tellLocked b _).steady
  · simp only
    split
    · exact (followsOptions_applyLogOptions _).steady (changes_followDrift _).steady
    · next hf => exact (h.toggle (eq_false_of_ne_true hf)).steady (changes_followDrift _).steady

theorem FollowsOptions.resetOptions (h : FollowsOptions b) : FollowsOptions b.resetOptions := by
  unfold Browser.resetOptions
  split
  · exact h.steady (changes_tellLocked b _).steady
  · split
    · exact h
    · exact (followsOptions_applyLogOptions _).steady
        ((changes_log _ .debug _).trans (changes_followDrift _)).steady

/-- Quitting leaves the options and the log alone. -/
theorem FollowsOptions.forceQuit (h : FollowsOptions b) : FollowsOptions b.forceQuit := by
  have hlog : b.forceQuit.log = b.log := b.session.log_shutdown
  exact ⟨hlog ▸ h.mode, hlog ▸ h.debugEnabled⟩

theorem FollowsOptions.step (h : FollowsOptions b) (event : Event) :
    FollowsOptions (b.step event) := by
  have hresponse := response b event
  generalize b.step event = c at hresponse
  cases hresponse with
  | steady hsteady => exact h.steady hsteady
  | quits _ _ => exact h.forceQuit
  | confirmed _ => exact (h.steady (changes_closeDialog b).steady).forceQuit
  | toggled f => exact h.toggleOption f
  | reset => exact h.resetOptions

theorem FollowsOptions.run (h : FollowsOptions b) (events : List Event) :
    FollowsOptions (b.run events) := by
  induction events generalizing b with
  | nil => exact h
  | cons event rest ih => exact ih (h.step event)

theorem followsOptions_new (config : Config) (env : Config.Environment) (dir : String)
    (files : FileStore) : FollowsOptions (new config env dir files) := ⟨rfl, rfl⟩

/-- **The log follows the live options**: in every run, from any configuration, lines go into the
buffer exactly if the options say so, and debug lines are accepted exactly if the options say so. -/
theorem followsOptions_run (config : Config) (env : Config.Environment) (dir : String)
    (files : FileStore) (events : List Event) :
    let b := (new config env dir files).run events
    (b.log.mode = .buffered ↔ b.options.live.logsToFile = true) ∧
      (b.log.accepts .debug = true ↔ b.options.live.enableDebug = true) := by
  intro b
  have hfollows : FollowsOptions b := (followsOptions_new config env dir files).run events
  have hmode : b.log.mode = logModeFor b.options.live := hfollows.mode
  have hdebug : b.log.debugEnabled = b.options.live.enableDebug := hfollows.debugEnabled
  constructor
  · rw [hmode, logModeFor]
    cases b.options.live.logsToFile <;> decide
  · rw [Log.accepts_debug, hdebug]

end Browser

end InstallerBrowser
