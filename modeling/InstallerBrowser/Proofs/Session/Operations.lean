import InstallerBrowser.Proofs.Session.Worker
import InstallerBrowser.Session.Run

/-!
# InstallerBrowser.Proofs.Session.Operations

What each operation of a session can do, and what each reply can do to it.

For an operation that sends a call there is one relation that lists its outcomes, guards included:
`LoadResult`, `ExtractResult` and `CheckResult`.  `ReplyResult` lists what becomes of a session
that handles a reply, by the kind of the call: a reply that cannot be used (`ReplyFault`) ends the
call with an error, any other takes the session on.  Later proofs split along these cases and
unfold no operation.
-/

namespace InstallerBrowser.Session

variable {s : Session}

/-! ## Sending -/

theorem dispatch_of_alive (h : s.worker.alive = true) (call : EngineCall) :
    s.dispatch call =
      ({ s with worker := (s.worker.send call).1, inFlight := some call.kind }, .ok ()) := by
  rw [dispatch, Worker.send_of_alive h]

theorem dispatch_of_dead (h : s.worker.alive = false) (call : EngineCall) :
    s.dispatch call =
      ({ s with worker := (s.worker.send call).1 }, .error (.protocol .workerStopped)) := by
  rw [dispatch, Worker.send_of_dead h]

theorem claimSlot_of_some {kind : CallKind} (h : s.inFlight = some kind) :
    s.claimSlot = .error (.busy kind) := by
  rw [claimSlot, h]

theorem claimSlot_of_none (h : s.inFlight = none) : s.claimSlot = .ok () := by
  rw [claimSlot, h]

/-! ## Operations that send a call -/

/-- What a load can come to. -/
inductive LoadResult (s : Session) (file : String) (options : Options) : Outcome Session → Prop
  | busy {kind} : s.inFlight = some kind → LoadResult s file options (s, .error (.busy kind))
  | locked : s.inFlight = none → s.state.canLoad = false →
      LoadResult s file options (s, .error (.invalidState .load s.state))
  | refused : s.inFlight = none → s.state.canLoad = true → s.worker.alive = false →
      LoadResult s file options (s.clearInstaller, .error (.protocol .workerStopped))
  | sent (log) : s.inFlight = none → s.state.canLoad = true → s.worker.alive = true →
      LoadResult s file options
        ({ s.clearInstaller with
            worker := (s.worker.send (.load file options)).1, inFlight := some .load
            pendingFile := some file, state := .loading, log }, .ok ())

theorem loadResult (s : Session) (file : String) (options : Options) :
    LoadResult s file options (s.load file options) := by
  unfold load
  cases hslot : s.inFlight with
  | some kind =>
      rw [claimSlot_of_some hslot]
      exact .busy hslot
  | none =>
      rw [claimSlot_of_none hslot]
      cases hstate : s.state.canLoad with
      | false => exact .locked hslot hstate
      | true =>
          simp only [if_true]
          cases halive : s.worker.alive with
          | true =>
              rw [dispatch_of_alive (show s.clearInstaller.worker.alive = true from halive)]
              exact .sent _ hslot hstate halive
          | false =>
              rw [dispatch_of_dead (show s.clearInstaller.worker.alive = false from halive)]
              have hworker : (s.clearInstaller.worker.send (.load file options)).1 =
                  s.clearInstaller.worker := Worker.send_fst_of_dead halive nofun
              rw [hworker]
              exact .refused hslot hstate halive

/-- The path of the next output. -/
def outputPath (s : Session) : String := nextOutputPath s.files s.outputDir s.installerName

/-- What is asked for when a tree is extracted to an output. -/
def extractionRequest (s : Session) (tree : SelectionTree) (sink : OutputSink) :
    ExtractionRequest :=
  .new tree.checkedSet (s.selectedLanguage.map (·.code)) sink.stagingPath

theorem state_of_editableTree {tree : SelectionTree} (h : s.editableTree = some tree) :
    s.state = .ready := by
  rw [editableTree] at h
  split at h
  · next hready => exact hready
  · cases h

/-- What an extraction can come to. -/
inductive ExtractResult (s : Session) : Outcome Session → Prop
  | busy {kind} : s.inFlight = some kind → ExtractResult s (s, .error (.busy kind))
  | unready : s.inFlight = none → s.editableTree = none →
      ExtractResult s (s, .error (.invalidState .extract s.state))
  | unopened {tree files e} : s.inFlight = none → s.editableTree = some tree →
      OutputSink.open s.files s.outputPath = (files, .error e) →
      ExtractResult s ({ s with files }, .error (.storage e))
  | refused {tree files sink} (log) : s.inFlight = none → s.editableTree = some tree →
      OutputSink.open s.files s.outputPath = (files, .ok sink) → s.worker.alive = false →
      ExtractResult s
        ({ s with
            worker := (s.worker.send (.extract (s.extractionRequest tree sink))).1
            files := sink.abandon files, log }, .error (.protocol .workerStopped))
  | sent {tree files sink} (progress log) : s.inFlight = none → s.editableTree = some tree →
      OutputSink.open s.files s.outputPath = (files, .ok sink) → s.worker.alive = true →
      ExtractResult s
        ({ s with
            worker := (s.worker.send (.extract (s.extractionRequest tree sink))).1
            inFlight := some .extract, files, log, output := some sink, progress
            state := .extracting }, .ok ())

theorem extractResult (s : Session) : ExtractResult s s.extract := by
  cases hslot : s.inFlight with
  | some kind =>
      rw [extract, claimSlot_of_some hslot]
      exact .busy hslot
  | none =>
      have hpath : nextOutputPath s.files s.outputDir s.installerName = s.outputPath := rfl
      simp only [extract, claimSlot_of_none hslot, hpath]
      cases htree : s.editableTree with
      | none => exact .unready hslot htree
      | some tree =>
          simp only
          rcases hopen : OutputSink.open s.files s.outputPath with ⟨files, e | sink⟩
          · exact .unopened hslot htree hopen
          · simp only [logInfo]
            cases halive : s.worker.alive with
            | true =>
                rw [dispatch_of_alive]
                · exact .sent _ _ hslot htree hopen halive
                · exact halive
            | false =>
                rw [dispatch_of_dead]
                · exact .refused _ hslot htree hopen halive
                · exact halive

/-- What a check of the options can come to. -/
inductive CheckResult (s : Session) (options : Options) : Outcome Session → Prop
  | busy {kind} : s.inFlight = some kind → CheckResult s options (s, .error (.busy kind))
  | refused : s.inFlight = none → s.worker.alive = false →
      CheckResult s options (s, .error (.protocol .workerStopped))
  | sent : s.inFlight = none → s.worker.alive = true →
      CheckResult s options
        ({ s with
            worker := (s.worker.send (.optionsDiffer options)).1
            inFlight := some .optionsDiffer }, .ok ())

theorem checkResult (s : Session) (options : Options) :
    CheckResult s options (s.checkOptions options) := by
  unfold checkOptions
  cases hslot : s.inFlight with
  | some kind =>
      rw [claimSlot_of_some hslot]
      exact .busy hslot
  | none =>
      rw [claimSlot_of_none hslot]
      cases halive : s.worker.alive with
      | true =>
          rw [dispatch_of_alive halive]
          exact .sent hslot halive
      | false =>
          have hworker := Worker.send_fst_of_dead halive
            (show (EngineCall.optionsDiffer options).kind ≠ .extract from nofun)
          rw [dispatch_of_dead halive, hworker]
          exact .refused hslot halive

/-! ## Operations that send nothing -/

/-- An abort marks a running extraction and fires the signal; without one it does nothing. -/
theorem abort_cases (s : Session) :
    s.abort = (s, false) ∨
      s.state = .extracting ∧ s.inFlight = some .extract ∧ ∃ progress log,
        s.abort =
          ({ s with worker := s.worker.abort, state := .aborting, progress, log }, true) := by
  unfold abort
  split
  · next h => exact .inr ⟨h.1, h.2, _, _, rfl⟩
  · exact .inl rfl

/-- An installer is given up when no call is under way and nothing is locked. -/
theorem discardInstaller_cases (s : Session) :
    (∃ e, s.discardInstaller = (s, .error e)) ∨
      s.inFlight = none ∧ s.state.isLocked = false ∧ ∃ log,
        s.discardInstaller =
          ({ s.clearInstaller with pendingFile := none, state := .idle, log }, .ok ()) := by
  unfold discardInstaller
  split
  · exact .inl ⟨_, rfl⟩
  · next h =>
      rw [Bool.or_eq_true, not_or, Bool.not_eq_true, Bool.not_eq_true, isBusy,
        Option.isSome_eq_false_iff, Option.isNone_iff_eq_none] at h
      exact .inr ⟨h.1, h.2, _, rfl⟩

theorem selectLanguage_cases (s : Session) (i : Nat) :
    (s.selectLanguage i).1 = s ∨
      i < s.languages.length ∧ (s.selectLanguage i).1 = { s with language := some i } := by
  unfold selectLanguage
  split
  · next h => exact .inr ⟨h, rfl⟩
  · exact .inl rfl

theorem changeTree_cases (s : Session) (op : SelectionTree.Operation) :
    s.changeTree op = s ∨
      ∃ tree, s.tree = some tree ∧ s.changeTree op = { s with tree := some (tree.step op) } := by
  unfold changeTree
  split
  · exact .inl rfl
  · next tree h =>
      refine .inr ⟨tree, ?_, rfl⟩
      split at h
      · exact h
      · rw [editableTree] at h
        split at h
        · exact h
        · cases h

/-- A session has the calls, the state, the output and the files of another. -/
structure Quiet (s t : Session) : Prop where
  worker : t.worker = s.worker
  inFlight : t.inFlight = s.inFlight
  state : t.state = s.state
  output : t.output = s.output
  files : t.files = s.files

theorem quiet_selectLanguage (s : Session) (i : Nat) : Quiet s (s.selectLanguage i).1 := by
  rcases selectLanguage_cases s i with h | ⟨_, h⟩
  · rw [h]
    exact ⟨rfl, rfl, rfl, rfl, rfl⟩
  · rw [h]
    exact ⟨rfl, rfl, rfl, rfl, rfl⟩

theorem quiet_changeTree (s : Session) (op : SelectionTree.Operation) :
    Quiet s (s.changeTree op) := by
  rcases changeTree_cases s op with h | ⟨tree, _, h⟩
  · rw [h]
    exact ⟨rfl, rfl, rfl, rfl, rfl⟩
  · rw [h]
    exact ⟨rfl, rfl, rfl, rfl, rfl⟩

/-- A notice changes the progress and the log, and tells of nothing that ends a call. -/
theorem onNotice_cases (s : Session) (notice : EngineNotice) : ∃ progress log,
    (s.onNotice notice).1 = { s with progress, log } ∧
      ((∃ text, (s.onNotice notice).2 = [.status text]) ∨
        (∃ percent, (s.onNotice notice).2 = [.progress percent]) ∨ (s.onNotice notice).2 = []) := by
  cases notice with
  | status text => exact ⟨_, _, rfl, .inl ⟨_, rfl⟩⟩
  | progress percent => exact ⟨_, _, rfl, .inr (.inl ⟨_, rfl⟩)⟩
  | log level message => exact ⟨_, _, rfl, .inr (.inr rfl)⟩

/-! ## The end of an output -/

/-- The files after an output was given its name, and its path. -/
def committed (s : Session) : FileStore × Except StorageError (Option String) :=
  match s.output with
  | none => (s.files, .ok none)
  | some sink => sink.commit s.files

/-- The files after an output was removed. -/
def discarded (s : Session) : FileStore × Except StorageError Unit :=
  match s.output with
  | none => (s.files, .ok ())
  | some sink => sink.discard s.files

theorem commitOutput_eq (s : Session) :
    s.commitOutput =
      ({ s with files := s.committed.1, output := none }, s.committed.2.mapError .storage) := by
  cases s with
  | mk worker files log outputDir state inFlight pendingFile loadedFile metadata tree language
      output progress =>
      cases output with
      | none => rfl
      | some sink =>
          simp only [commitOutput, committed]
          rcases sink.commit files with ⟨files', e | path⟩ <;> rfl

theorem discardOutput_eq (s : Session) :
    s.discardOutput =
      ({ s with files := s.discarded.1, output := none }, s.discarded.2.mapError .storage) := by
  cases s with
  | mk worker files log outputDir state inFlight pendingFile loadedFile metadata tree language
      output progress =>
      cases output with
      | none => rfl
      | some sink =>
          simp only [discardOutput, discarded]
          rcases sink.discard files with ⟨files', e | path⟩ <;> rfl

/-- The session after a call of a kind has failed. -/
def afterFailure (s : Session) : CallKind → Session
  | .load | .list =>
    { s with metadata := none, tree := none, language := none, pendingFile := none
             state := .error }
  | .extract => { s with files := s.discarded.1, output := none, progress := {}, state := .error }
  | .optionsDiffer => s

theorem fail_eq (s : Session) (kind : CallKind) (e : AppError) :
    s.fail kind e = (s.afterFailure kind, [.failed e]) := by
  cases kind with
  | load => rfl
  | list => rfl
  | extract => simp only [fail, discardOutput_eq, afterFailure]
  | optionsDiffer => rfl

/-! ## Replies -/

/-- Why the reply to a call of a kind cannot be used. -/
inductive ReplyFault : CallKind → Except AppError String → AppError → Prop
  | error (kind e) : ReplyFault kind (.error e) e
  | load {raw e} : Reply.parseLoad raw = .error e → ReplyFault .load (.ok raw) e
  | list {raw e} : Reply.parseList raw = .error e → ReplyFault .list (.ok raw) e
  | tree {raw entries fault} : Reply.parseList raw = .ok entries →
      SelectionTree.build entries = .error fault →
      ReplyFault .list (.ok raw) (.malformedTree fault)
  | extract {raw e} : Reply.parseExtract raw = .error e → ReplyFault .extract (.ok raw) e
  | optionsDiffer {raw e} : Reply.parseOptionsDiffer raw = .error e →
      ReplyFault .optionsDiffer (.ok raw) e

/-- What becomes of a session, its slot already free, that handles the reply to a call of a
kind. -/
inductive ReplyResult (s : Session) :
    CallKind → Except AppError String → Session × List SessionEvent → Prop
  | faulty {kind result e} : ReplyFault kind result e →
      ReplyResult s kind result (s.afterFailure kind, [.failed e])
  | loaded {raw metadata} (language log) : Reply.parseLoad raw = .ok metadata →
      language = (if metadata.languages.isEmpty then none else some 0) →
      s.worker.alive = true →
      ReplyResult s .load (.ok raw)
        ({ s with
            worker := (s.worker.send .list).1, inFlight := some .list
            metadata := some metadata, language, log }, [])
  | unlisted {raw metadata} (log) : Reply.parseLoad raw = .ok metadata →
      s.worker.alive = false →
      ReplyResult s .load (.ok raw)
        ({ s.afterFailure .load with log }, [.failed (.protocol .workerStopped)])
  | listed {raw entries tree} (log) : Reply.parseList raw = .ok entries →
      SelectionTree.build entries = .ok tree →
      ReplyResult s .list (.ok raw)
        ({ s with
            tree := some tree, loadedFile := s.pendingFile, pendingFile := none
            state := .ready, log },
          [.loaded ((s.metadata.map (·.name)).getD "") tree.size])
  | completed {raw status path} (text log) : Reply.parseExtract raw = .ok (.completed status) →
      s.committed.2 = .ok path → text = statusOr status "Completed successfully" →
      ReplyResult s .extract (.ok raw)
        ({ s with
            files := s.committed.1, output := none, state := .ready, log
            progress := { status := text, percent := 100, startedAt := none } },
          [.extracted path text])
  | uncommitted {raw status e} : Reply.parseExtract raw = .ok (.completed status) →
      s.committed.2 = .error e →
      ReplyResult s .extract (.ok raw)
        ({ s with files := s.committed.1, output := none, progress := {}, state := .error },
          [.failed (.storage e)])
  | aborted {raw status} (log) : Reply.parseExtract raw = .ok (.aborted status) →
      s.discarded.2 = .ok () →
      ReplyResult s .extract (.ok raw)
        ({ s with files := s.discarded.1, output := none, progress := {}, state := .ready, log },
          [.aborted (statusOr status "Aborted by user")])
  | undiscarded {raw status e} : Reply.parseExtract raw = .ok (.aborted status) →
      s.discarded.2 = .error e →
      ReplyResult s .extract (.ok raw)
        ({ s with files := s.discarded.1, output := none, progress := {}, state := .error },
          [.failed (.storage e)])
  | answered {raw differ} : Reply.parseOptionsDiffer raw = .ok differ →
      ReplyResult s .optionsDiffer (.ok raw) (s, [.optionsDiffer differ])

/-- The events and the session of a reply that was handled: what could not be used up to its end
fails. -/
def settle (kind : CallKind) : Handled → Session × List SessionEvent
  | (s, events, .ok ()) => (s, events)
  | (s, events, .error e) => (s.afterFailure kind, events ++ [.failed e])

theorem onEvent_reply_ok (s : Session) (kind : CallKind) (raw : String) :
    s.onEvent (.reply kind (.ok raw)) =
      settle kind ({ s with inFlight := none }.onReply kind raw) := by
  simp only [onEvent]
  generalize { s with inFlight := none }.onReply kind raw = handled
  obtain ⟨s', events, e | _⟩ := handled
  · simp only [fail_eq, settle]
  · rfl

theorem replyResult_onLoaded (s : Session) (raw : String) :
    ReplyResult s .load (.ok raw) (settle .load (s.onLoaded raw)) := by
  unfold onLoaded
  cases hparse : Reply.parseLoad raw with
  | error e => exact .faulty (.load hparse)
  | ok metadata =>
      simp only [logInfo]
      cases halive : s.worker.alive with
      | true =>
          rw [dispatch_of_alive]
          · exact .loaded _ _ hparse rfl halive
          · exact halive
      | false =>
          have hworker : (s.worker.send .list).1 = s.worker := Worker.send_fst_of_dead halive nofun
          rw [dispatch_of_dead]
          · simp only [hworker]
            exact .unlisted _ hparse halive
          · exact halive

theorem replyResult_onListed (s : Session) (raw : String) :
    ReplyResult s .list (.ok raw) (settle .list (s.onListed raw)) := by
  unfold onListed
  cases hparse : Reply.parseList raw with
  | error e => exact .faulty (.list hparse)
  | ok entries =>
      simp only
      cases hbuild : SelectionTree.build entries with
      | error fault => exact .faulty (.tree hparse hbuild)
      | ok tree => exact .listed _ hparse hbuild

theorem replyResult_onExtracted (s : Session) (raw : String) :
    ReplyResult s .extract (.ok raw) (settle .extract (s.onExtracted raw)) := by
  unfold onExtracted
  cases hparse : Reply.parseExtract raw with
  | error e => exact .faulty (.extract hparse)
  | ok outcome =>
      cases outcome with
      | completed status =>
          simp only [commitOutput_eq]
          cases hcommit : s.committed.2 with
          | error e => exact .uncommitted hparse hcommit
          | ok path =>
              have hok : Except.mapError AppError.storage (.ok path) = .ok path := rfl
              simp only [hok]
              cases s.progress.startedAt with
              | none => exact .completed _ _ hparse hcommit rfl
              | some time => exact .completed _ _ hparse hcommit rfl
      | aborted status =>
          simp only [discardOutput_eq]
          cases hdiscard : s.discarded.2 with
          | error e => exact .undiscarded hparse hdiscard
          | ok _ => exact .aborted _ hparse hdiscard

theorem replyResult_onOptionsDiffer (s : Session) (raw : String) :
    ReplyResult s .optionsDiffer (.ok raw) (settle .optionsDiffer (s.onOptionsDiffer raw)) := by
  unfold onOptionsDiffer
  cases hparse : Reply.parseOptionsDiffer raw with
  | error e => exact .faulty (.optionsDiffer hparse)
  | ok differ => exact .answered hparse

/-- A reply frees the slot, and is then handled by the kind of its call. -/
theorem replyResult (s : Session) (kind : CallKind) (result : Except AppError String) :
    ReplyResult { s with inFlight := none } kind result (s.onEvent (.reply kind result)) := by
  cases result with
  | error e =>
      rw [onEvent, fail_eq]
      exact .faulty (.error kind e)
  | ok raw =>
      rw [onEvent_reply_ok]
      cases kind with
      | load => exact replyResult_onLoaded _ raw
      | list => exact replyResult_onListed _ raw
      | extract => exact replyResult_onExtracted _ raw
      | optionsDiffer => exact replyResult_onOptionsDiffer _ raw

/-- The death of the worker fails the call that is under way, if there is one. -/
theorem onEvent_stopped_cases (s : Session) :
    s.inFlight = none ∧ s.onEvent .stopped = (s, []) ∨
      ∃ kind, s.inFlight = some kind ∧
        s.onEvent .stopped =
          ({ s with inFlight := none }.afterFailure kind,
            [.failed (.protocol .workerStopped)]) := by
  cases h : s.inFlight with
  | none => exact .inl ⟨rfl, by simp only [onEvent, h]⟩
  | some kind => exact .inr ⟨kind, rfl, by simp only [onEvent, h, fail_eq]⟩

end InstallerBrowser.Session
