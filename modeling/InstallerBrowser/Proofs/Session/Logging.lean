import InstallerBrowser.Proofs.Log
import InstallerBrowser.Session.Run

/-!
# InstallerBrowser.Proofs.Session.Logging

What a session does to its log.

A session logs lines, its own and those of the engine.  Where lines go, and whether debug lines are
kept, is none of its business: no step changes the setting of the log (`setting_step`).
-/

namespace InstallerBrowser

namespace Log

@[simp] theorem setting_log (l : Log) (level : LogLevel) (message : String) :
    (l.log level message).setting = l.setting := by
  unfold log
  split
  · simp only
    split <;> rfl
  · rfl

@[simp] theorem setting_refreshCounter (l : Log) (forced : Bool) :
    (l.refreshCounter forced).1.setting = l.setting := by
  unfold refreshCounter
  split <;> rfl

end Log

namespace Session

variable (s : Session)

@[simp] theorem setting_logInfo (message : String) :
    (s.logInfo message).log.setting = s.log.setting := s.log.setting_log .info message

@[simp] theorem log_dispatch (call : EngineCall) : (s.dispatch call).1.log = s.log := by
  unfold dispatch
  split <;> rfl

/-! ## Operations -/

@[simp] theorem setting_load (file : String) (options : Options) :
    (s.load file options).1.log.setting = s.log.setting := by
  have hsent := s.clearInstaller.log_dispatch (.load file options)
  unfold load
  split
  · rfl
  · split
    · split
      · next hdispatch => rw [hdispatch] at hsent; exact congrArg Log.setting hsent
      · next hdispatch =>
          rw [hdispatch] at hsent
          rw [setting_logInfo]
          exact congrArg Log.setting hsent
    · rfl

@[simp] theorem setting_extract : s.extract.1.log.setting = s.log.setting := by
  unfold extract
  split
  · rfl
  · split
    · rfl
    · simp only
      split
      · rfl
      · next files sink _ =>
          split
          · next hdispatch =>
              have hsent := congrArg (·.1.log.setting) hdispatch
              simpa using hsent.symm
          · next hdispatch =>
              have hsent := congrArg (·.1.log.setting) hdispatch
              simpa using hsent.symm

@[simp] theorem setting_abort : s.abort.1.log.setting = s.log.setting := by
  unfold abort
  split
  · exact setting_logInfo _ _
  · rfl

@[simp] theorem log_checkOptions (options : Options) :
    (s.checkOptions options).1.log = s.log := by
  unfold checkOptions
  split
  · rfl
  · exact s.log_dispatch _

@[simp] theorem log_selectLanguage (i : Nat) : (s.selectLanguage i).1.log = s.log := by
  unfold selectLanguage
  split <;> rfl

@[simp] theorem setting_discardInstaller :
    s.discardInstaller.1.log.setting = s.log.setting := by
  unfold discardInstaller
  split
  · rfl
  · exact setting_logInfo _ _

@[simp] theorem log_shutdown : s.shutdown.log = s.log := by
  unfold shutdown
  split
  all_goals
    simp only
    split <;> rfl

theorem log_changeTree (op : SelectionTree.Operation) : (s.changeTree op).log = s.log := by
  unfold changeTree
  split <;> rfl

/-! ## What was sent -/

theorem setting_onNotice (notice : EngineNotice) :
    (s.onNotice notice).1.log.setting = s.log.setting := by
  cases notice with
  | status _ | progress _ => rfl
  | log level message => exact s.log.setting_log level message

theorem setting_onLoaded (raw : String) : (s.onLoaded raw).1.log.setting = s.log.setting := by
  unfold onLoaded
  split
  · rfl
  · simp

theorem setting_onListed (raw : String) : (s.onListed raw).1.log.setting = s.log.setting := by
  unfold onListed
  split
  · rfl
  · split
    · rfl
    · exact setting_logInfo _ _

theorem log_commitOutput : s.commitOutput.1.log = s.log := by
  unfold commitOutput
  split
  · rfl
  · split <;> rfl

theorem log_discardOutput : s.discardOutput.1.log = s.log := by
  unfold discardOutput
  split
  · rfl
  · split <;> rfl

theorem setting_onExtracted (raw : String) :
    (s.onExtracted raw).1.log.setting = s.log.setting := by
  have hcommitted := s.log_commitOutput
  have hdiscarded := s.log_discardOutput
  unfold onExtracted
  split
  · rfl
  · split
    · next hcommit => rw [hcommit] at hcommitted; exact congrArg Log.setting hcommitted
    · next hcommit =>
        rw [hcommit] at hcommitted
        rw [setting_logInfo]
        split
        · exact congrArg Log.setting hcommitted
        · rw [setting_logInfo]
          exact congrArg Log.setting hcommitted
  · split
    · next hdiscard => rw [hdiscard] at hdiscarded; exact congrArg Log.setting hdiscarded
    · next hdiscard =>
        rw [hdiscard] at hdiscarded
        rw [setting_logInfo]
        exact congrArg Log.setting hdiscarded

theorem setting_onReply (kind : CallKind) (raw : String) :
    (s.onReply kind raw).1.log.setting = s.log.setting := by
  cases kind with
  | load => exact s.setting_onLoaded raw
  | list => exact s.setting_onListed raw
  | extract => exact s.setting_onExtracted raw
  | optionsDiffer =>
      rw [onReply, onOptionsDiffer]
      split <;> rfl

theorem log_fail (kind : CallKind) (e : AppError) : (s.fail kind e).1.log = s.log := by
  cases kind with
  | load | list | optionsDiffer => rfl
  | extract => exact s.log_discardOutput

theorem setting_onEvent (event : WorkerEvent) :
    (s.onEvent event).1.log.setting = s.log.setting := by
  cases event with
  | notice notice => exact s.setting_onNotice notice
  | reply kind result =>
      cases result with
      | error e => exact congrArg Log.setting (log_fail _ kind e)
      | ok raw =>
          have hreplied := setting_onReply { s with inFlight := none } kind raw
          rw [onEvent]
          simp only
          split
          · next heq => rw [heq] at hreplied; exact hreplied
          · next t _ e heq =>
              rw [heq] at hreplied
              exact (congrArg Log.setting (t.log_fail kind e)).trans hreplied
  | stopped =>
      rw [onEvent]
      split
      · rfl
      · exact congrArg Log.setting (log_fail _ _ _)

@[simp] theorem setting_poll : s.poll.1.log.setting = s.log.setting := by
  have hevents : ∀ (events : List WorkerEvent) (s : Session),
      (s.onEvents events).1.log.setting = s.log.setting := by
    intro events
    induction events with
    | nil => exact fun _ => rfl
    | cons event rest ih => exact fun s => (ih _).trans (s.setting_onEvent event)
  exact hevents s.worker.poll.2 { s with worker := s.worker.poll.1 }

/-- No step of a session changes the setting of its log. -/
theorem setting_step (step : Step) : (s.step step).log.setting = s.log.setting := by
  cases step with
  | load file options => exact s.setting_load file options
  | extract => exact s.setting_extract
  | abort => exact s.setting_abort
  | checkOptions options => exact congrArg Log.setting (s.log_checkOptions options)
  | selectLanguage i => exact congrArg Log.setting (s.log_selectLanguage i)
  | discardInstaller => exact s.setting_discardInstaller
  | changeTree op => exact congrArg Log.setting (s.log_changeTree op)
  | poll => exact s.setting_poll
  | shutdown => exact congrArg Log.setting s.log_shutdown
  | worker _ | storage _ => rfl

end Session

end InstallerBrowser
