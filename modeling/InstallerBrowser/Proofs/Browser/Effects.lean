import InstallerBrowser.Browser.Run
import InstallerBrowser.Proofs.Browser.Files
import InstallerBrowser.Proofs.Queue
import InstallerBrowser.Proofs.Session.Stage

/-!
# InstallerBrowser.Proofs.Browser.Effects

What an event can do to a browser.

Two browsers are `Alike` if they differ in nothing but what is on screen, the log and the files.
Up to that, `Effect` lists what an event can do, guards included, `Removal` what taking a file out
of the queue can do, and `Ticked` what a tick can do.  Every event has one such effect (`Stepped`),
whether a key, a dialog, a pasted text or an action leads to it, so later proofs split along these
lists and follow no key.  `session_run` carries over to runs of a browser what every
step of a session keeps.
-/

namespace InstallerBrowser.Browser

variable {b b' c c' d : Browser}

/-! ## Browsers that are alike -/

/-- Nothing but what is on screen, the log and the files differs. -/
structure Alike (b c : Browser) : Prop where
  session : ∃ log files, c.session = { b.session with log, files }
  queue : c.queue = b.queue
  options : c.options = b.options
  pending : c.driftCheckPending = b.driftCheckPending
  defaults : c.defaultOptions = b.defaultOptions
  theme : c.theme = b.theme
  home : c.home = b.home
  logDir : c.logDir = b.logDir
  quitting : c.shouldQuit = b.shouldQuit

namespace Alike

/-- What is on screen, the log and the files may be anything. -/
theorem shown {log : Log} {files : FileStore} {layout : Layout} {dialog : Option Dialog}
    {toast : Option String} {treeCursor treeScroll queueScroll : Nat} {broken : Bool} :
    Alike b
      { b with
        session := { b.session with log, files }
        layout, dialog, toast, treeCursor, treeScroll, queueScroll, broken } :=
  ⟨⟨_, _, rfl⟩, rfl, rfl, rfl, rfl, rfl, rfl, rfl, rfl⟩

theorem refl (b : Browser) : Alike b b := .shown

theorem trans (h : Alike b c) (h' : Alike c d) : Alike b d where
  session := by
    obtain ⟨_, _, hsession⟩ := h.session
    obtain ⟨log, files, hsession'⟩ := h'.session
    exact ⟨log, files, by rw [hsession', hsession]⟩
  queue := h'.queue.trans h.queue
  options := h'.options.trans h.options
  pending := h'.pending.trans h.pending
  defaults := h'.defaults.trans h.defaults
  theme := h'.theme.trans h.theme
  home := h'.home.trans h.home
  logDir := h'.logDir.trans h.logDir
  quitting := h'.quitting.trans h.quitting

theorem worker (h : Alike b c) : c.session.worker = b.session.worker := by
  obtain ⟨log, files, hsession⟩ := h.session
  rw [hsession]

theorem state (h : Alike b c) : c.session.state = b.session.state := by
  obtain ⟨log, files, hsession⟩ := h.session
  rw [hsession]

theorem inFlight (h : Alike b c) : c.session.inFlight = b.session.inFlight := by
  obtain ⟨log, files, hsession⟩ := h.session
  rw [hsession]

/-- Changing the options of both in one way keeps them alike. -/
theorem mapOptions (h : Alike b c) (f : OptionsState → OptionsState) :
    Alike { b with options := f b.options } { c with options := f c.options } :=
  { h with options := congrArg f h.options }

end Alike

/-! ## What only shows something -/

theorem alike_mapLog (b : Browser) (f : Log → Log) : Alike b (b.mapLog f) := .shown

theorem alike_showToast (b : Browser) (message : String) : Alike b (b.showToast message) := .shown

theorem alike_openDialog (b : Browser) (dialog : Dialog) : Alike b (b.openDialog dialog) := .shown

theorem alike_closeDialog (b : Browser) : Alike b b.closeDialog := .shown

theorem alike_reportError (b : Browser) (e : AppError) : Alike b (b.reportError e) :=
  (alike_mapLog b _).trans (alike_openDialog _ _)

theorem alike_tellLocked (b : Browser) (what : String) : Alike b (b.tellLocked what) :=
  alike_showToast b _

theorem alike_clampQueueScroll (b : Browser) : Alike b b.clampQueueScroll := .shown

theorem alike_clampTree (b : Browser) : Alike b b.clampTree := .shown

theorem alike_moveTreeCursor (b : Browser) (row : Nat) : Alike b (b.moveTreeCursor row) := .shown

theorem alike_showSelected (b : Browser) : Alike b b.showSelected := by
  unfold showSelected
  split
  · exact .shown
  · exact .refl b

theorem alike_edit (b : Browser) (dialog : Dialog) (op : LineEdit.Operation) :
    Alike b (b.edit dialog op) := by
  unfold edit
  split
  · split
    · exact alike_openDialog b _
    · exact .shown
  · exact .refl b

theorem alike_paste (b : Browser) (text : String) : Alike b (b.paste text) := by
  unfold paste
  split
  · exact alike_edit b _ _
  · exact .refl b

theorem alike_saveLog (b : Browser) : Alike b b.saveLog := by
  unfold saveLog
  split
  · split
    · exact .shown
    · exact .shown
  · exact alike_showToast b _

theorem alike_askForFile (b : Browser) : Alike b b.askForFile := by
  unfold askForFile
  split
  · exact alike_tellLocked b _
  · exact alike_openDialog b _

theorem alike_askToAbort (b : Browser) : Alike b b.askToAbort := by
  unfold askToAbort
  split
  · exact alike_openDialog b _
  · exact alike_showToast b _

/-! ## Effects -/

/-- Steps of the session that an event takes and adds nothing to. -/
inductive Passed (b : Browser) : Session.Step → Prop
  | extract : Passed b .extract
  | abort : Passed b .abort
  | changeTree (op) : Passed b (.changeTree op)
  | selectLanguage (i) : b.session.state = .ready → Passed b (.selectLanguage i)

/-- What comes of a question on the options. -/
inductive Asked (b : Browser) : Browser → Prop
  | waits : b.session.inFlight ≠ none ∨ b.session.state.isLocked = true → Asked b b
  | sent : b.session.inFlight = none → b.session.state.isLocked = false →
      b.session.worker.alive = true →
      Asked b
        { b with
          session :=
            { b.session with
              worker := (b.session.worker.send (.optionsDiffer b.options.live)).1
              inFlight := some .optionsDiffer }
          driftCheckPending := false }
  | refused : b.session.inFlight = none → b.session.state.isLocked = false →
      b.session.worker.alive = false → Asked b { b with driftCheckPending := false }

/-- The options once the answers among some events are kept. -/
def heed (o : OptionsState) (events : List SessionEvent) : OptionsState :=
  events.foldl
    (fun o event =>
      match event with
      | .optionsDiffer differ => o.applyDriftAnswer differ
      | _ => o)
    o

/-- An answer says whether a reload is called for, and nothing else. -/
theorem heed_eq (o : OptionsState) (events : List SessionEvent) :
    ∃ reloadNeeded, heed o events = { o with reloadNeeded } := by
  induction events generalizing o with
  | nil => exact ⟨_, rfl⟩
  | cons event rest ih =>
      cases event with
      | optionsDiffer differ => exact ih (o.applyDriftAnswer differ)
      | status _ | progress _ | loaded _ _ | extracted _ _ | aborted _ | failed _ => exact ih o

/-- The browser once it has handled what the engine has sent. -/
def polled (b : Browser) : Browser :=
  { b with session := b.session.poll.1, options := heed b.options b.session.poll.2 }

/-- What an event can do, up to what is shown. -/
inductive Effect (b : Browser) : Browser → Prop
  | nothing : Effect b b
  | moved (queue) : queue.files = b.queue.files → Effect b { b with queue }
  | added (files) : b.session.state.isLocked = false →
      Effect b { b with queue := b.queue.add files }
  | passed (step) : Passed b step → Effect b { b with session := b.session.step step }
  | loaded (f) : b.queue.selectedFile = some f →
      (b.session.load f.path b.options.live).2 = .ok () →
      Effect b
        { b with
          session := (b.session.load f.path b.options.live).1
          options := b.options.markLoaded b.options.live, driftCheckPending := false }
  | unloaded (f : String) (e) : (b.session.load f b.options.live).2 = .error e →
      Effect b { b with session := (b.session.load f b.options.live).1 }
  | changed (o : Options) : b.session.state.isLocked = false → b.options.needsDriftCheck = false →
      Effect b { b with options := b.options.setOptions o }
  | checked (o : Options) (c : Browser) : b.session.state.isLocked = false →
      b.options.needsDriftCheck = true →
      Asked { b with options := b.options.setOptions o, driftCheckPending := true } c →
      Effect b c
  | quit : Effect b { b with session := b.session.shutdown, shouldQuit := true }

/-- What a tick can do, up to what is shown. -/
inductive Ticked (b : Browser) : Browser → Prop
  | polled : b.driftCheckPending = false → Ticked b b.polled
  | asked {c : Browser} : b.driftCheckPending = true → Asked b.polled c → Ticked b c

/-- The queue without the file with a number. -/
def queueWithout (b : Browser) (i : Nat) : FileQueue := .ofFiles (b.queue.files.eraseIdx i)

/-- Whether a file is the one that is loaded, and in a queue no other time. -/
def isLastLoaded (b : Browser) (queue : FileQueue) (f : QueuedFile) : Bool :=
  b.isLoaded f.path && !queue.files.any fun g => Path.same g.path f.path

/-- What a removal from the queue can do, up to what is shown. -/
inductive Removal (b : Browser) : Browser → Prop
  | kept {i f} : b.session.state.isLocked = false → b.queue.selected = some i →
      b.queue.files[i]? = some f → b.isLastLoaded (b.queueWithout i) f = false →
      Removal b { b with queue := b.queueWithout i }
  | discarded {i f} : b.session.state.isLocked = false → b.queue.selected = some i →
      b.queue.files[i]? = some f → b.isLastLoaded (b.queueWithout i) f = true →
      b.session.inFlight = none →
      Removal b
        { b with
          queue := b.queueWithout i
          session := { b.session.clearInstaller with pendingFile := none, state := .idle } }
  | stranded {i f} : b.session.state.isLocked = false → b.queue.selected = some i →
      b.queue.files[i]? = some f → b.isLastLoaded (b.queueWithout i) f = true →
      b.session.inFlight ≠ none → Removal b { b with queue := b.queueWithout i }
  | nothing : b.session.state.isLocked = true ∨ b.queue.selectedFile = none → Removal b b

/-- Taking a file out of the queue asks the engine nothing. -/
theorem Removal.unasked (h : Removal b c) :
    c.options = b.options ∧ c.driftCheckPending = b.driftCheckPending ∧
      c.session.worker = b.session.worker ∧ c.session.inFlight = b.session.inFlight := by
  cases h with
  | kept _ _ _ _ | discarded _ _ _ _ _ | stranded _ _ _ _ _ | nothing _ =>
      exact ⟨rfl, rfl, rfl, rfl⟩

/-- A browser goes over into another by an effect. -/
def Does (b c : Browser) : Prop := ∃ b' c', Alike b b' ∧ Effect b' c' ∧ Alike c' c

theorem Effect.does (h : Effect b c) : Does b c := ⟨b, c, .refl b, h, .refl c⟩

theorem Alike.does (h : Alike b c) : Does b c := ⟨b, b, .refl b, .nothing, h⟩

theorem Does.alike (h : Does b c) (h' : Alike c d) : Does b d := by
  obtain ⟨b', c', hb, heffect, hc⟩ := h
  exact ⟨b', c', hb, heffect, hc.trans h'⟩

theorem Alike.does_trans (h : Alike b c) (h' : Does c d) : Does b d := by
  obtain ⟨c', d', hc, heffect, hd⟩ := h'
  exact ⟨c', d', h.trans hc, heffect, hd⟩

/-! ## The queue and the tree -/

theorem does_moveInQueue (b : Browser) {f : FileQueue → FileQueue}
    (hf : (f b.queue).files = b.queue.files) : Does b (b.moveInQueue f) :=
  (Effect.moved _ hf).does.alike (alike_showSelected _)

theorem does_moveDown (b : Browser) : Does b b.moveDown := by
  unfold moveDown
  split
  · exact does_moveInQueue b (FileQueue.files_next _)
  · exact (alike_moveTreeCursor b _).does

theorem does_moveUp (b : Browser) : Does b b.moveUp := by
  unfold moveUp
  split
  · exact does_moveInQueue b (FileQueue.files_prev _)
  · exact (alike_moveTreeCursor b _).does

theorem does_goToTop (b : Browser) : Does b b.goToTop := by
  unfold goToTop
  split
  · exact does_moveInQueue b (FileQueue.files_select _ _)
  · exact (alike_moveTreeCursor b _).does

theorem does_goToBottom (b : Browser) : Does b b.goToBottom := by
  unfold goToBottom
  split
  · exact does_moveInQueue b (FileQueue.files_select _ _)
  · exact (alike_moveTreeCursor b _).does

/-- Opening and closing nodes is a step of the session. -/
theorem mapTree_eq (b : Browser) (op : SelectionTree.Operation)
    (hop : Session.onlyOpens op = true) :
    b.mapTree (·.step op) = { b with session := b.session.step (.changeTree op) } := by
  simp only [mapTree, Session.step, Session.changeTree, hop, if_true]
  cases b.session.tree <;> rfl

/-- Changing check marks is a step of the session. -/
theorem mapMarks_eq (b : Browser) (op : SelectionTree.Operation)
    (hop : Session.onlyOpens op = false) :
    b.mapMarks (·.step op) = { b with session := b.session.step (.changeTree op) } := by
  simp only [mapMarks, Session.step, Session.changeTree, hop, Bool.false_eq_true, if_false]
  cases b.session.editableTree <;> rfl

theorem does_mapTree (b : Browser) (op : SelectionTree.Operation)
    (hop : Session.onlyOpens op = true) : Does b (b.mapTree (·.step op)) := by
  rw [mapTree_eq b op hop]
  exact (Effect.passed _ (.changeTree op)).does

theorem does_mapMarks (b : Browser) (op : SelectionTree.Operation)
    (hop : Session.onlyOpens op = false) : Does b (b.mapMarks (·.step op)) := by
  rw [mapMarks_eq b op hop]
  exact (Effect.passed _ (.changeTree op)).does

theorem does_collapse (b : Browser) : Does b b.collapse := by
  unfold collapse
  split
  · next row _ _ =>
      split
      · exact (does_mapTree b (.collapse row.key) rfl).alike (alike_clampTree _)
      · exact (alike_moveTreeCursor b _).does
  · exact (Alike.refl b).does

theorem does_expand (b : Browser) : Does b b.expand := by
  unfold expand
  split
  · next row _ _ =>
      split
      · exact (Alike.refl b).does
      · split
        · exact (alike_moveTreeCursor b _).does
        · exact (does_mapTree b (.expand row.key) rfl).alike (alike_clampTree _)
  · exact (Alike.refl b).does

theorem does_toggleCheck (b : Browser) : Does b b.toggleCheck := by
  unfold toggleCheck
  split
  · exact (Alike.refl b).does
  · next row _ =>
      split
      · exact (does_mapMarks b (.toggle row.key) rfl).alike (alike_moveTreeCursor _ _)
      · exact (alike_tellLocked b _).does

/-! ## The session -/

theorem does_loadSelected (b : Browser) : Does b b.loadSelected := by
  unfold loadSelected
  split
  · exact (alike_showToast b _).does
  · next f hf =>
      split
      · next session hload =>
          have h := Effect.loaded f hf (congrArg Prod.snd hload)
          rw [hload] at h
          exact h.does.alike .shown
      · next session e hload =>
          have h := Effect.unloaded f.path e (congrArg Prod.snd hload)
          rw [hload] at h
          exact h.does.alike (alike_reportError _ _)

theorem does_activate (b : Browser) : Does b b.activate := by
  unfold activate
  split
  · exact does_loadSelected b
  · split
    · exact (Alike.refl b).does
    · next row _ =>
        split
        · exact (does_mapTree b (.toggleExpanded row.key) rfl).alike (alike_clampTree _)
        · exact does_toggleCheck b

/-- An extraction, whose error is shown. -/
theorem does_extract (b : Browser) :
    Does b
      (match b.session.extract with
      | (session, .ok ()) => { b with session }
      | (session, .error e) => { b with session }.reportError e) := by
  have h := (Effect.passed (b := b) .extract .extract).does
  simp only [Session.step] at h
  split
  · next session hextract =>
      rw [hextract] at h
      exact h
  · next session e hextract =>
      rw [hextract] at h
      exact h.alike (alike_reportError _ _)

theorem does_extractSelected (b : Browser) : Does b b.extractSelected := by
  simp only [extractSelected]
  cases b.nothingChecked with
  | true => exact (alike_mapLog b _).does_trans (does_extract _)
  | false => exact does_extract b

theorem does_abortExtraction (b : Browser) : Does b b.abortExtraction := by
  unfold abortExtraction
  have h := (Effect.passed (b := b) .abort .abort).does
  simp only [Session.step] at h
  split
  · next session habort =>
      rw [habort] at h
      exact h
  · next session habort =>
      rw [habort] at h
      exact h.alike (alike_showToast _ _)

theorem does_cycleLanguage (b : Browser) (forward : Bool) : Does b (b.cycleLanguage forward) := by
  simp only [cycleLanguage]
  split
  · next hready =>
      have h := (Effect.passed (b := b) _ (.selectLanguage
        (cycled forward (b.session.language.getD 0) b.session.languages.length) hready.1)).does
      split
      · exact h
      · exact h.alike ((alike_mapLog _ _).trans (alike_showToast _ _))
  · exact (Alike.refl b).does

theorem does_forceQuit (b : Browser) : Does b b.forceQuit := Effect.quit.does

theorem does_quit (b : Browser) : Does b b.quit := by
  unfold quit
  split
  · exact (alike_openDialog b _).does
  · exact does_forceQuit b

/-! ## Adding files -/

theorem does_addFiles (b : Browser) (paths : List String) : Does b (b.addFiles paths) := by
  cases hlocked : b.session.state.isLocked with
  | true =>
      rw [addFiles, if_pos hlocked]
      exact (alike_tellLocked b _).does
  | false =>
      rw [addFiles_of_unlocked hlocked]
      by_cases hnone : (paths.filterMap b.session.files.fileAt?).isEmpty = true
      · simp only [if_pos hnone]
        exact Alike.shown.does
      · simp only [if_neg hnone]
        exact (Effect.added _ hlocked).does.alike .shown

theorem does_addLine (b : Browser) (line : String) : Does b (b.addLine line) := by
  unfold addLine
  split
  · exact (Alike.refl b).does
  · exact does_addFiles b _

/-! ## The options -/

/-- Asking on the options comes to one of the listed results, up to what is shown. -/
theorem asked_requestDriftCheck (b : Browser) :
    ∃ c, Asked b c ∧ Alike c b.requestDriftCheck := by
  unfold requestDriftCheck
  cases hslot : b.session.inFlight with
  | some kind =>
      have hbusy : b.session.isBusy = true := by simp [Session.isBusy, hslot]
      rw [hbusy]
      exact ⟨b, .waits (.inl (by simp [hslot])), .refl b⟩
  | none =>
      have hfree : b.session.isBusy = false := by simp [Session.isBusy, hslot]
      rw [hfree]
      cases hstate : b.session.state.isLocked with
      | true => exact ⟨b, .waits (.inr hstate), .refl b⟩
      | false =>
          have hcheck := Session.checkResult b.session b.options.live
          generalize b.session.checkOptions b.options.live = r at hcheck
          cases hcheck with
          | busy hbusy => cases hslot.symm.trans hbusy
          | refused _ hdead => exact ⟨_, .refused hslot hstate hdead, alike_reportError _ _⟩
          | sent _ halive => exact ⟨_, .sent hslot hstate halive, .refl _⟩

/-- The result of a question hangs on nothing that is only shown. -/
theorem Asked.congr (h : Alike b b') (hasked : Asked b' c') : ∃ c, Asked b c ∧ Alike c c' := by
  obtain ⟨log, files, hsession⟩ := h.session
  cases hasked with
  | waits hwaits =>
      rw [h.inFlight, h.state] at hwaits
      exact ⟨b, .waits hwaits, h⟩
  | sent hslot hstate halive =>
      rw [h.inFlight] at hslot
      rw [h.state] at hstate
      rw [h.worker] at halive
      refine ⟨_, .sent hslot hstate halive, { h with session := ⟨log, files, ?_⟩, pending := rfl }⟩
      simp only [hsession, h.options]
  | refused hslot hstate hdead =>
      rw [h.inFlight] at hslot
      rw [h.state] at hstate
      rw [h.worker] at hdead
      exact ⟨_, .refused hslot hstate hdead, { h with pending := rfl }⟩

/-- Changed options are followed by a question on them, whatever was logged in between. -/
theorem does_followDrift {o : Options} (hstate : b.session.state.isLocked = false)
    (h : Alike { b with options := b.options.setOptions o } c) : Does b c.followDrift := by
  have hsame : c.options.needsDriftCheck = b.options.needsDriftCheck := by
    rw [h.options]
    rfl
  unfold followDrift
  cases hneeds : c.options.needsDriftCheck with
  | false => exact (Effect.changed o hstate (hsame.symm.trans hneeds)).does.alike h
  | true =>
      obtain ⟨c', hasked, hshown⟩ := asked_requestDriftCheck { c with driftCheckPending := true }
      have hpending : Alike
          { b with options := b.options.setOptions o, driftCheckPending := true }
          { c with driftCheckPending := true } := { h with pending := rfl }
      obtain ⟨d, hasked', hshown'⟩ := hasked.congr hpending
      exact (Effect.checked o d hstate (hsame.symm.trans hneeds) hasked').does.alike
        (hshown'.trans hshown)

theorem does_toggleOption (b : Browser) (f : OptionField) : Does b (b.toggleOption f) := by
  unfold toggleOption
  split
  · exact (alike_tellLocked b _).does
  · next hstate =>
      rw [Bool.not_eq_true] at hstate
      simp only
      split
      · exact does_followDrift (o := b.options.live.toggle f) hstate (alike_mapLog _ _)
      · exact does_followDrift (o := b.options.live.toggle f) hstate (.refl _)

theorem does_resetOptions (b : Browser) : Does b b.resetOptions := by
  unfold resetOptions
  split
  · exact (alike_tellLocked b _).does
  · next hstate =>
      rw [Bool.not_eq_true] at hstate
      split
      · exact (Alike.refl b).does
      · exact does_followDrift hstate ((alike_mapLog _ _).trans (alike_mapLog _ _))

/-! ## Ticks -/

theorem alike_onEvent (b : Browser) (event : SessionEvent) :
    Alike { b with options := heed b.options [event] } (b.onEvent event) := by
  cases event with
  | status _ | progress _ => exact .refl b
  | loaded _ _ => exact .shown
  | extracted output _ =>
      cases output with
      | none => exact alike_showToast b _
      | some path => exact alike_openDialog b _
  | aborted _ => exact alike_showToast b _
  | optionsDiffer differ =>
      simp only [onEvent]
      split
      · exact alike_showToast _ _
      · exact .refl _
  | failed e => exact alike_reportError b e

/-- Of the events of a session only the answers on the options change more than is shown. -/
theorem alike_onEvents (events : List SessionEvent) (b : Browser) :
    Alike { b with options := heed b.options events } (events.foldl onEvent b) := by
  induction events generalizing b with
  | nil => exact .refl b
  | cons event rest ih =>
      exact ((alike_onEvent b event).mapOptions (heed · rest)).trans (ih (b.onEvent event))

theorem alike_poll (b : Browser) : Alike b.polled b.poll :=
  alike_onEvents b.session.poll.2 { b with session := b.session.poll.1 }

theorem ticked_tick (b : Browser) : ∃ c, Ticked b c ∧ Alike c b.tick := by
  simp only [tick]
  have hpolled := alike_poll b
  cases hpending : b.driftCheckPending with
  | false =>
      have hpending' : b.poll.driftCheckPending = false := hpolled.pending.trans hpending
      rw [hpending']
      exact ⟨_, .polled hpending, hpolled.trans (alike_mapLog _ _)⟩
  | true =>
      have hpending' : b.poll.driftCheckPending = true := hpolled.pending.trans hpending
      rw [hpending']
      obtain ⟨c', hasked, hshown⟩ := asked_requestDriftCheck b.poll
      obtain ⟨c, hasked', hshown'⟩ := hasked.congr hpolled
      exact ⟨c, .asked hpending hasked', hshown'.trans (hshown.trans (alike_mapLog _ _))⟩

/-! ## Actions, dialogs and keys -/

theorem does_execute (b : Browser) {action : Action} (h : action ≠ .removeFile) :
    Does b (b.execute action) := by
  cases action with
  | moveUp => exact does_moveUp b
  | moveDown => exact does_moveDown b
  | goToTop => exact does_goToTop b
  | goToBottom => exact does_goToBottom b
  | collapse => exact does_collapse b
  | expand => exact does_expand b
  | activate => exact does_activate b
  | focusNext => exact Alike.shown.does
  | toggleCheck => exact does_toggleCheck b
  | checkAll => exact does_mapMarks b .checkAll rfl
  | uncheckAll => exact does_mapMarks b .uncheckAll rfl
  | addFile => exact (alike_askForFile b).does
  | removeFile => exact absurd rfl h
  | loadInstaller => exact does_loadSelected b
  | extract => exact does_extractSelected b
  | abort => exact (alike_askToAbort b).does
  | nextLanguage => exact does_cycleLanguage b true
  | prevLanguage => exact does_cycleLanguage b false
  | showOptions => exact (alike_openDialog b _).does
  | saveLog => exact (alike_saveLog b).does
  | showHelp => exact (alike_openDialog b _).does
  | quit => exact does_quit b

theorem does_press (b : Browser) (dialog : Dialog) (button : DialogButton) :
    Does b (b.press dialog button) := by
  have hclosed := alike_closeDialog b
  cases button with
  | cancel => exact hclosed.does
  | ok =>
      cases dialog with
      | input _ _ line _ => exact hclosed.does_trans (does_addLine _ line.text)
      | confirm _ _ _ purpose =>
          cases purpose with
          | quitWhileExtracting => exact hclosed.does_trans (does_forceQuit _)
          | abortExtraction => exact hclosed.does_trans (does_abortExtraction _)
      | options _ | error _ _ | message _ _ | help _ => exact hclosed.does

theorem does_changeOption (b : Browser) (i : Nat) : Does b (b.changeOption i) := by
  unfold changeOption
  split
  · exact does_toggleOption b _
  · exact (Alike.refl b).does

theorem does_command (b : Browser) (dialog : Dialog) (command : DialogCommand) :
    Does b (b.command dialog command) := by
  cases command with
  | close => exact (alike_closeDialog b).does
  | confirm =>
      cases dialog with
      | input title prompt line button =>
          exact does_press b (.input title prompt line button) button
      | confirm title message button purpose =>
          exact does_press b (.confirm title message button purpose) button
      | options _ | error _ _ | message _ _ | help _ => exact (alike_closeDialog b).does
  | accept => exact does_press b dialog .ok
  | toggleButton => exact (alike_openDialog b _).does
  | edit op => exact (alike_edit b dialog op).does
  | changeOption =>
      cases dialog with
      | options i => exact does_changeOption b i
      | input _ _ _ _ | confirm _ _ _ _ | error _ _ | message _ _ | help _ =>
          exact (Alike.refl b).does
  | resetOptions => exact does_resetOptions b
  | nextOption | prevOption | scrollDown | scrollUp =>
      cases dialog with
      | options _ | help _ | input _ _ _ _ | confirm _ _ _ _ | error _ _ | message _ _ =>
          first
          | exact (alike_openDialog b _).does
          | exact (Alike.refl b).does

/-! ## Removing a file -/

theorem alike_discardInstaller_of_busy (h : b.session.inFlight ≠ none) :
    Alike b b.discardInstaller := by
  unfold discardInstaller
  rcases Session.discardInstaller_cases b.session with ⟨e, heq⟩ | ⟨hfree, _⟩
  · rw [heq]
    exact alike_reportError b e
  · exact absurd hfree h

theorem Alike.discardInstaller (h : Alike b c) (hfree : b.session.inFlight = none)
    (hstate : b.session.state.isLocked = false) :
    Alike
      { b with session := { b.session.clearInstaller with pendingFile := none, state := .idle } }
      c.discardInstaller := by
  obtain ⟨log, files, hsession⟩ := h.session
  have hbusy : c.session.isBusy = false := by rw [Session.isBusy, h.inFlight, hfree]; rfl
  have hlocked : c.session.state.isLocked = false := by rw [h.state, hstate]
  simp only [Browser.discardInstaller, Session.discardInstaller, hbusy, hlocked, Bool.or_false]
  exact { h with session := ⟨_, _, by rw [hsession]; rfl⟩ }

/-- Taking the selected file out of the queue comes to one of the listed results, up to what is
shown. -/
theorem removal_removeSelected (b : Browser) : ∃ c, Removal b c ∧ Alike c b.removeSelected := by
  unfold removeSelected
  split
  · next hstate => exact ⟨b, .nothing (.inl hstate), alike_tellLocked b _⟩
  · next hstate =>
      rw [Bool.not_eq_true] at hstate
      cases hselected : b.queue.selected with
      | none => exact ⟨b, .nothing (.inr (by simp [FileQueue.selectedFile, hselected])), .refl b⟩
      | some i =>
          cases hf : b.queue.files[i]? with
          | none =>
              have hremove : b.queue.remove i = (b.queue, none) := by simp [FileQueue.remove, hf]
              have hnone : b.queue.selectedFile = none := by
                simp [FileQueue.selectedFile, hselected, hf]
              simp only [hremove]
              exact ⟨b, .nothing (.inr hnone), .refl b⟩
          | some f =>
              have hremove : b.queue.remove i = (b.queueWithout i, some f) :=
                FileQueue.remove_of_getElem? hf
              simp only [hremove]
              have hlogged := alike_mapLog { b with queue := b.queueWithout i }
                (·.info ("Removed " ++ f.name ++ " from the queue"))
              split
              · next hlast =>
                  cases hslot : b.session.inFlight with
                  | none =>
                      have hgone := hlogged.discardInstaller hslot hstate
                      exact ⟨_, .discarded hstate hselected hf hlast hslot,
                        hgone.trans (alike_clampQueueScroll _)⟩
                  | some kind =>
                      have hbusy : b.session.inFlight ≠ none := by simp [hslot]
                      have hkept := hlogged.trans (alike_discardInstaller_of_busy hbusy)
                      exact ⟨_, .stranded hstate hselected hf hlast hbusy,
                        hkept.trans (alike_clampQueueScroll _)⟩
              · next hlast =>
                  exact ⟨_, .kept hstate hselected hf (Bool.not_eq_true _ ▸ hlast),
                    hlogged.trans (alike_clampQueueScroll _)⟩

/-! ## Events -/

/-- The action that an event stands for, if it does; keys do while no dialog is open. -/
def action? (b : Browser) : Event → Option Action
  | .key k =>
    match b.dialog with
    | some _ => none
    | none => Action.ofKey? k
  | .action action => some action
  | _ => none

theorem step_of_action {event : Event} {action : Action} (h : b.action? event = some action) :
    b.step event = b.execute action := by
  cases event with
  | key k =>
      simp only [action?] at h
      simp only [step, key]
      cases hdialog : b.dialog with
      | some dialog =>
          rw [hdialog] at h
          cases h
      | none =>
          rw [hdialog] at h
          simp only [h]
  | action action' =>
      cases h
      rfl
  | paste _ | addFiles _ | toggleOption _ | resetOptions | abortExtraction | resize _ | tick
  | worker _ | files _ => cases h

/-- Every event but a removal from the queue, an action of the engine's side and a tick has one of
the listed effects. -/
theorem does_step {event : Event} (hremove : b.action? event ≠ some .removeFile)
    (hworker : ∀ action, event ≠ .worker action) (htick : event ≠ .tick) :
    Does b (b.step event) := by
  cases event with
  | key k =>
      simp only [step, key]
      cases hdialog : b.dialog with
      | some dialog =>
          simp only
          split
          · exact does_command b dialog _
          · exact (Alike.refl b).does
      | none =>
          simp only [action?, hdialog] at hremove
          simp only
          split
          · next action hkey => exact does_execute b fun heq => hremove (heq ▸ hkey)
          · exact (Alike.refl b).does
  | paste text => exact (alike_paste b text).does
  | action action => exact does_execute b fun heq => hremove (congrArg some heq)
  | addFiles paths => exact does_addFiles b paths
  | toggleOption f => exact does_toggleOption b f
  | resetOptions => exact does_resetOptions b
  | abortExtraction => exact does_abortExtraction b
  | resize screen => exact Alike.shown.does
  | tick => exact absurd rfl htick
  | worker action => exact absurd rfl (hworker action)
  | files store => exact Alike.shown.does

theorem removal_step {event : Event} (hremove : b.action? event = some .removeFile) :
    ∃ c, Removal b c ∧ Alike c (b.step event) := by
  rw [step_of_action hremove]
  exact removal_removeSelected b

/-- What an event comes to. -/
inductive Stepped (b : Browser) (event : Event) : Prop
  | removes {c : Browser} : b.action? event = some .removeFile → Removal b c →
      Alike c (b.step event) → Stepped b event
  | acts (action) : event = .worker action → Stepped b event
  | ticks {c : Browser} : event = .tick → Ticked b c → Alike c (b.step event) → Stepped b event
  | does : event ≠ .tick → (∀ action, event ≠ .worker action) → Does b (b.step event) →
      Stepped b event

theorem stepped (b : Browser) (event : Event) : Stepped b event := by
  by_cases hremove : b.action? event = some .removeFile
  · obtain ⟨c, hremoval, hshown⟩ := removal_step hremove
    exact .removes hremove hremoval hshown
  · by_cases hworker : ∃ action, event = .worker action
    · obtain ⟨action, rfl⟩ := hworker
      exact .acts action rfl
    · by_cases htick : event = .tick
      · obtain ⟨c, hticked, hshown⟩ := ticked_tick b
        exact .ticks htick hticked (htick ▸ hshown)
      · have hworker' : ∀ action, event ≠ .worker action := fun action heq =>
          hworker ⟨action, heq⟩
        exact .does htick hworker' (does_step hremove hworker' htick)

/-! ## Runs -/

@[simp] theorem run_cons (b : Browser) (event : Event) (rest : List Event) :
    b.run (event :: rest) = (b.step event).run rest := rfl

theorem run_append (b : Browser) (before after : List Event) :
    b.run (before ++ after) = (b.run before).run after := List.foldl_append

/-- A property of sessions that every step keeps, and that asks for neither log nor files. -/
structure Kept (P : Session → Prop) : Prop where
  step : ∀ s step, P s → P (s.step step)
  noted : ∀ s log files, P s → P { s with log, files }

section Kept

variable {P : Session → Prop}

theorem Kept.alike (hP : Kept P) (h : Alike b c) (hb : P b.session) : P c.session := by
  obtain ⟨log, files, hsession⟩ := h.session
  rw [hsession]
  exact hP.noted _ log files hb

theorem Kept.asked (hP : Kept P) (h : Asked b c) (hb : P b.session) : P c.session := by
  cases h with
  | waits _ => exact hb
  | refused _ _ _ => exact hb
  | sent hslot _ halive =>
      have hsent := hP.step b.session (.checkOptions b.options.live) hb
      rw [Session.step, Session.checkOptions, Session.claimSlot_of_none hslot] at hsent
      simp only [Session.dispatch_of_alive halive] at hsent
      exact hsent

theorem Kept.effect (hP : Kept P) (h : Effect b c) (hb : P b.session) : P c.session := by
  cases h with
  | nothing | moved _ _ | added _ _ | changed _ _ _ => exact hb
  | passed step _ => exact hP.step _ step hb
  | loaded f _ _ => exact hP.step _ (.load f.path b.options.live) hb
  | unloaded f _ _ => exact hP.step _ (.load f b.options.live) hb
  | checked _ _ _ _ hasked => exact hP.asked hasked hb
  | quit => exact hP.step _ .shutdown hb

theorem Kept.ticked (hP : Kept P) (h : Ticked b c) (hb : P b.session) : P c.session := by
  cases h with
  | polled _ => exact hP.step _ .poll hb
  | asked _ hasked => exact hP.asked hasked (hP.step _ .poll hb)

theorem Kept.removal (hP : Kept P) (h : Removal b c) (hb : P b.session) : P c.session := by
  cases h with
  | kept _ _ _ _ | stranded _ _ _ _ _ | nothing _ => exact hb
  | discarded hstate _ _ _ hslot =>
      rcases Session.discardInstaller_cases b.session with ⟨e, heq⟩ | ⟨_, _, log, heq⟩
      · simp [Session.discardInstaller, Session.isBusy, hslot, hstate] at heq
      · have hgone := hP.step _ .discardInstaller hb
        rw [Session.step, heq] at hgone
        exact hP.noted _ b.session.log b.session.files hgone

theorem session_step (hP : Kept P) (event : Event) (hb : P b.session) :
    P (b.step event).session := by
  cases stepped b event with
  | removes _ hremoval hshown => exact hP.alike hshown (hP.removal hremoval hb)
  | acts action heq =>
      rw [heq]
      exact hP.step _ (.worker action) hb
  | ticks _ hticked hshown => exact hP.alike hshown (hP.ticked hticked hb)
  | does _ _ hdoes =>
      obtain ⟨b', c', hbefore, heffect, hafter⟩ := hdoes
      exact hP.alike hafter (hP.effect heffect (hP.alike hbefore hb))

/-- What every step of a session keeps holds after every run of a browser. -/
theorem session_run (hP : Kept P) (events : List Event) (hb : P b.session) :
    P (b.run events).session := by
  induction events generalizing b with
  | nil => exact hb
  | cons event rest ih => exact ih (session_step hP event hb)

end Kept

theorem kept_inOrder : Kept Session.InOrder :=
  ⟨fun _ step h => h.step step, fun _ log files h => h.noted log files⟩

/-- The slot, the state and the pending file of a browser agree after every run. -/
theorem inOrder_run (config : Config) (env : Config.Environment) (dir : String)
    (files : FileStore) (events : List Event) :
    ((new config env dir files).run events).session.InOrder :=
  session_run kept_inOrder events (Session.inOrder_new _ _ _)

theorem kept_dead : Kept fun s => s.worker.alive = false :=
  ⟨fun _ step h => Session.dead_step step h, fun _ _ _ h => h⟩

/-- A worker that lives at the end of a run lives all along it. -/
theorem alive_of_alive_run {events : List Event}
    (h : (b.run events).session.worker.alive = true) : b.session.worker.alive = true := by
  cases halive : b.session.worker.alive with
  | true => rfl
  | false => cases h.symm.trans (session_run kept_dead events halive)

/-- A home directory, and no configuration file. -/
def atHome : Config.Environment := { home := "/home" }

/-- A file system with an installer in the working directory. -/
def setupFiles : FileStore := Session.emptyFiles.put ["work", "setup.exe"] (.file "")

/-- The installer is queued and loaded, and a live worker answers the two calls of the load. -/
def setupEvents : List Event :=
  [ .addFiles ["setup.exe"], .action .loadInstaller
  , .worker .take, .worker (.reply (.ok "\x7b\"name\":\"Setup\"\x7d")), .tick
  , .worker .take
  , .worker (.reply (.ok "[\x7b\"node\":1,\"name\":\"a.txt\",\"fileId\":1\x7d]")), .tick ]

end InstallerBrowser.Browser
