import InstallerBrowser.Proofs.Browser.Effects
import InstallerBrowser.Proofs.Session.Tree

/-!
# InstallerBrowser.Proofs.Browser.Changes

What the operations of a browser are made of.

Nearly all that a browser does is a sequence of changes of a few kinds (`Change`), whatever decides
between them, and each operation has its lemma for that.  So a property is followed through the kinds
of changes, and not through the operations.  Apart from them stand the reading of what the engine
has sent, a change of the options, and the two ways to quit; `Outcome` lists these with their guards,
and every event has one such outcome (`outcome`).
-/

namespace InstallerBrowser.Browser

variable {b c d : Browser}

/-! ## Changes -/

/-- A change that operations are made of.  A step of the session among them keeps the tree or drops
it, but for those that open or close nodes, after which the cursor is put back among the rows, and
those that change marks. -/
inductive Change (b : Browser) : Browser → Prop
  | logged (level message) : Change b (b.mapLog (·.log level message))
  | counted : Change b (b.mapLog fun log => (log.refreshCounter false).1)
  | shown {layout dialog toast queueScroll broken} :
      Change b { b with layout, dialog, toast, queueScroll, broken }
  | queued (queue) : Change b { b with queue }
  | noted (options driftCheckPending) : options.live = b.options.live →
      Change b { b with options, driftCheckPending }
  | passed (step) : Session.Spared b.session.tree (b.session.step step).tree →
      Change b { b with session := b.session.step step }
  | toTop : Change b { b with treeCursor := 0, treeScroll := 0 }
  | moved (row) : Change b (b.moveTreeCursor row)
  | opened (op) : Session.onlyOpens op = true →
      Change b { b with session := b.session.step (.changeTree op) }.clampTree
  | marked (op) : Session.onlyOpens op = false →
      Change b { b with session := b.session.step (.changeTree op) }

/-- A sequence of changes leads from a browser to another. -/
def Changes : Browser → Browser → Prop := Relation.ReflTransGen Change

namespace Changes

theorem refl (b : Browser) : Changes b b := Relation.ReflTransGen.refl

theorem trans (h : Changes b c) (h' : Changes c d) : Changes b d := Relation.ReflTransGen.trans h h'

theorem tail (h : Changes b c) (h' : Change c d) : Changes b d := Relation.ReflTransGen.tail h h'

end Changes

theorem Change.changes (h : Change b c) : Changes b c := Relation.ReflTransGen.single h

/-! ## Telling -/

theorem changes_log (b : Browser) (level : LogLevel) (message : String) :
    Changes b (b.mapLog (·.log level message)) := (Change.logged level message).changes

theorem changes_showToast (b : Browser) (message : String) : Changes b (b.showToast message) :=
  Change.shown.changes

theorem changes_openDialog (b : Browser) (dialog : Dialog) : Changes b (b.openDialog dialog) :=
  Change.shown.changes

theorem changes_closeDialog (b : Browser) : Changes b b.closeDialog := Change.shown.changes

theorem changes_reportError (b : Browser) (e : AppError) : Changes b (b.reportError e) :=
  (changes_log b .error e.message).trans (changes_openDialog _ _)

theorem changes_tellLocked (b : Browser) (what : String) : Changes b (b.tellLocked what) :=
  changes_showToast b _

theorem changes_foldl {α : Type} {f : Browser → α → Browser} (hf : ∀ b a, Changes b (f b a))
    (items : List α) (b : Browser) : Changes b (items.foldl f b) := by
  induction items generalizing b with
  | nil => exact .refl b
  | cons a rest ih => exact (hf b a).trans (ih (f b a))

/-! ## The queue and the tree -/

theorem changes_moveInQueue (b : Browser) (f : FileQueue → FileQueue) :
    Changes b (b.moveInQueue f) := by
  have hmoved : Changes b { b with queue := f b.queue } := (Change.queued _).changes
  unfold moveInQueue showSelected
  split
  · exact hmoved.tail .shown
  · exact hmoved

theorem changes_moveTreeCursor (b : Browser) (row : Nat) : Changes b (b.moveTreeCursor row) :=
  (Change.moved row).changes

/-- A move in the queue or in the tree, by the panel that has the focus. -/
theorem changes_byFocus (b : Browser) (f : FileQueue → FileQueue) (row : Nat) :
    Changes b
      (match b.layout.focus with
      | .queue => b.moveInQueue f
      | .tree => b.moveTreeCursor row) := by
  split
  · exact changes_moveInQueue b f
  · exact changes_moveTreeCursor b row

theorem changes_mapTree (b : Browser) (op : SelectionTree.Operation)
    (hop : Session.onlyOpens op = true) : Changes b (b.mapTree (·.step op)).clampTree := by
  rw [mapTree_eq b op hop]
  exact (Change.opened op hop).changes

theorem changes_mapMarks (b : Browser) (op : SelectionTree.Operation)
    (hop : Session.onlyOpens op = false) : Changes b (b.mapMarks (·.step op)) := by
  rw [mapMarks_eq b op hop]
  exact (Change.marked op hop).changes

theorem changes_collapse (b : Browser) : Changes b b.collapse := by
  unfold collapse
  split
  · next row _ _ =>
      split
      · exact changes_mapTree b (.collapse row.key) rfl
      · exact changes_moveTreeCursor b _
  · exact .refl b

theorem changes_expand (b : Browser) : Changes b b.expand := by
  unfold expand
  split
  · next row _ _ =>
      split
      · exact .refl b
      · split
        · exact changes_moveTreeCursor b _
        · exact changes_mapTree b (.expand row.key) rfl
  · exact .refl b

theorem changes_toggleCheck (b : Browser) : Changes b b.toggleCheck := by
  unfold toggleCheck
  split
  · exact .refl b
  · next row _ =>
      split
      · exact (changes_mapMarks b (.toggle row.key) rfl).trans (changes_moveTreeCursor _ _)
      · exact changes_tellLocked b _

/-! ## The session -/

theorem changes_loadSelected (b : Browser) : Changes b b.loadSelected := by
  unfold loadSelected
  split
  · exact changes_showToast b _
  · next f _ =>
      have hloaded := (Change.passed (.load f.path b.options.live)
        (b.session.spared_load f.path b.options.live)).changes
      simp only [Session.step] at hloaded
      split
      · next hload =>
          rw [hload] at hloaded
          exact (hloaded.tail (.noted (b.options.markLoaded b.options.live) false rfl)).tail .toTop
      · next hload =>
          rw [hload] at hloaded
          exact hloaded.trans (changes_reportError _ _)

theorem changes_activate (b : Browser) : Changes b b.activate := by
  unfold activate
  split
  · exact changes_loadSelected b
  · split
    · exact .refl b
    · next row _ =>
        split
        · exact changes_mapTree b (.toggleExpanded row.key) rfl
        · exact changes_toggleCheck b

/-- An extraction, whose error is shown. -/
theorem changes_extract (b : Browser) :
    Changes b
      (match b.session.extract with
      | (session, .ok ()) => { b with session }
      | (session, .error e) => { b with session }.reportError e) := by
  have hextracted := (Change.passed .extract (.inl b.session.tree_extract)).changes
  simp only [Session.step] at hextracted
  split
  · next hextract => rwa [hextract] at hextracted
  · next hextract =>
      rw [hextract] at hextracted
      exact hextracted.trans (changes_reportError _ _)

theorem changes_extractSelected (b : Browser) : Changes b b.extractSelected := by
  simp only [extractSelected]
  cases b.nothingChecked with
  | true => exact (changes_log b .info _).trans (changes_extract _)
  | false => exact changes_extract b

theorem changes_askToAbort (b : Browser) : Changes b b.askToAbort := by
  unfold askToAbort
  split
  · exact changes_openDialog b _
  · exact changes_showToast b _

theorem changes_abortExtraction (b : Browser) : Changes b b.abortExtraction := by
  have haborted := (Change.passed .abort (.inl b.session.tree_abort)).changes
  simp only [Session.step] at haborted
  unfold abortExtraction
  split
  · next habort => rwa [habort] at haborted
  · next habort =>
      rw [habort] at haborted
      exact haborted.trans (changes_showToast _ _)

theorem changes_cycleLanguage (b : Browser) (forward : Bool) :
    Changes b (b.cycleLanguage forward) := by
  simp only [cycleLanguage]
  split
  · have hchosen := (Change.passed (.selectLanguage
      (cycled forward (b.session.language.getD 0) b.session.languages.length))
      (.inl (b.session.tree_selectLanguage _))).changes
    split
    · exact hchosen
    · exact hchosen.trans ((changes_log _ .debug _).trans (changes_showToast _ _))
  · exact .refl b

theorem changes_saveLog (b : Browser) : Changes b b.saveLog := by
  have hwritten : ∀ files, Changes b { b with session := { b.session with files } } := fun files =>
    (Change.passed (.storage fun _ => files) (.inl rfl)).changes
  unfold saveLog
  split
  · split
    · exact (hwritten _).trans (changes_showToast _ _)
    · exact (hwritten _).trans (changes_reportError _ _)
  · exact changes_showToast b _

/-! ## Files -/

theorem changes_enqueue (b : Browser) (files : List QueuedFile) : Changes b (b.enqueue files) := by
  simp only [enqueue]
  split
  · exact .refl b
  · have hlogged := changes_foldl (fun b (f : QueuedFile) => changes_log b .debug
      ("Queued " ++ f.path ++ " (" ++ Measure.fileSize f.size ++ ")")) files b
    exact ((hlogged.tail (.queued _)).tail (.logged .info _)).tail .shown

theorem changes_addFiles (b : Browser) (paths : List String) : Changes b (b.addFiles paths) := by
  unfold addFiles
  split
  · exact changes_tellLocked b _
  · generalize sortPaths b.session.files paths = sorted
    obtain ⟨files, failures⟩ := sorted
    have hlogged := changes_foldl (fun b (failure : String × AppError) => changes_log b .error
      ("Cannot add " ++ failure.1 ++ ": " ++ failure.2.message)) failures b
    have hadded := hlogged.trans (changes_enqueue _ files)
    cases failures with
    | nil => exact hadded
    | cons failure rest => exact hadded.trans (changes_openDialog _ _)

theorem changes_addLine (b : Browser) (line : String) : Changes b (b.addLine line) := by
  unfold addLine
  split
  · exact .refl b
  · exact changes_addFiles b _

theorem changes_askForFile (b : Browser) : Changes b b.askForFile := by
  unfold askForFile
  split
  · exact changes_tellLocked b _
  · exact changes_openDialog b _

theorem changes_discardInstaller (b : Browser) : Changes b b.discardInstaller := by
  have hdiscarded := (Change.passed .discardInstaller b.session.spared_discardInstaller).changes
  simp only [Session.step] at hdiscarded
  unfold discardInstaller
  split
  · next hdiscard =>
      rw [hdiscard] at hdiscarded
      exact (hdiscarded.tail .toTop).tail .shown
  · next hdiscard =>
      rw [hdiscard] at hdiscarded
      exact hdiscarded.trans (changes_reportError _ _)

theorem changes_removeSelected (b : Browser) : Changes b b.removeSelected := by
  unfold removeSelected
  split
  · exact changes_tellLocked b _
  · split
    · exact .refl b
    · split
      · exact .refl b
      · next queue f _ =>
          have hremoved : Changes b { b with queue } := (Change.queued queue).changes
          have hlogged := hremoved.tail (.logged .info ("Removed " ++ f.name ++ " from the queue"))
          simp only
          split
          · exact (hlogged.trans (changes_discardInstaller _)).tail .shown
          · exact hlogged.tail .shown

/-! ## Questions on the options -/

theorem changes_requestDriftCheck (b : Browser) : Changes b b.requestDriftCheck := by
  have hasked := (Change.passed (.checkOptions b.options.live)
    (.inl (b.session.tree_checkOptions b.options.live))).changes
  simp only [Session.step] at hasked
  unfold requestDriftCheck
  split
  · exact .refl b
  · split
    · next hcheck => rw [hcheck] at hasked; exact hasked.tail (.noted _ _ rfl)
    · next hcheck => rwa [hcheck] at hasked
    · next hcheck =>
        rw [hcheck] at hasked
        exact (hasked.tail (.noted _ _ rfl)).trans (changes_reportError _ _)

theorem changes_followDrift (b : Browser) : Changes b b.followDrift := by
  unfold followDrift
  split
  · have hpending : Changes b { b with driftCheckPending := true } :=
      (Change.noted _ _ rfl).changes
    exact hpending.trans (changes_requestDriftCheck _)
  · exact .refl b

/-! ## Ticks -/

theorem changes_onEvent (b : Browser) (event : SessionEvent) : Changes b (b.onEvent event) := by
  cases event with
  | status _ | progress _ => exact .refl b
  | loaded _ _ => exact Change.toTop.changes.tail .shown
  | extracted output _ =>
      cases output with
      | none => exact changes_showToast b _
      | some path => exact changes_openDialog b _
  | aborted _ => exact changes_showToast b _
  | optionsDiffer differ =>
      have hanswered : Changes b { b with options := b.options.applyDriftAnswer differ } :=
        (Change.noted (b.options.applyDriftAnswer differ) b.driftCheckPending rfl).changes
      simp only [onEvent]
      split
      · exact hanswered.trans (changes_showToast _ _)
      · exact hanswered
  | failed e => exact changes_reportError b e

/-- A tick first reads what the engine has sent. -/
theorem changes_tick (b : Browser) : Changes b.poll b.tick := by
  simp only [tick]
  split
  · exact (changes_requestDriftCheck _).tail .counted
  · exact Change.counted.changes

/-! ## Events -/

/-- A key by which the open question, whether to quit in the midst of an extraction, is answered
with its first button: either the key for that button, or the one for the chosen button. -/
def ConfirmsQuit (b : Browser) (event : Event) : Prop :=
  ∃ k title message button, event = .key k ∧
    b.dialog = some (.confirm title message button .quitWhileExtracting) ∧
    (k.code = .char 'y' ∨ k.code = .char 'Y' ∨ k.code = .enter ∧ button = .ok)

/-- What comes of an event: changes as above, maybe after reading what the engine has sent, the end
of the program, or a change of the options. -/
inductive Outcome (b : Browser) (event : Event) : Browser → Prop
  | changes {c : Browser} : Changes b c → Outcome b event c
  | polls {c : Browser} : Changes b.poll c → Outcome b event c
  | quits : b.action? event = some .quit → b.isExtracting = false → Outcome b event b.forceQuit
  | confirmed : ConfirmsQuit b event → Outcome b event b.closeDialog.forceQuit
  | toggled (f) : Outcome b event (b.toggleOption f)
  | reset : Outcome b event b.resetOptions

theorem changes_edit (b : Browser) (dialog : Dialog) (op : LineEdit.Operation) :
    Changes b (b.edit dialog op) := by
  unfold edit
  split
  · split
    · exact changes_openDialog b _
    · exact Change.shown.changes
  · exact .refl b

theorem changes_execute (b : Browser) {action : Action} (h : action ≠ .quit) :
    Changes b (b.execute action) := by
  cases action with
  | moveUp | moveDown | goToTop | goToBottom => exact changes_byFocus b _ _
  | collapse => exact changes_collapse b
  | expand => exact changes_expand b
  | activate => exact changes_activate b
  | focusNext => exact Change.shown.changes
  | toggleCheck => exact changes_toggleCheck b
  | checkAll => exact changes_mapMarks b .checkAll rfl
  | uncheckAll => exact changes_mapMarks b .uncheckAll rfl
  | addFile => exact changes_askForFile b
  | removeFile => exact changes_removeSelected b
  | loadInstaller => exact changes_loadSelected b
  | extract => exact changes_extractSelected b
  | abort => exact changes_askToAbort b
  | nextLanguage | prevLanguage => exact changes_cycleLanguage b _
  | showOptions | showHelp => exact changes_openDialog b _
  | saveLog => exact changes_saveLog b
  | quit => exact absurd rfl h

theorem outcome_of_action {event : Event} {action : Action} (h : b.action? event = some action) :
    Outcome b event (b.execute action) := by
  by_cases hquit : action = .quit
  · subst hquit
    rw [execute, quit]
    split
    · exact .changes (changes_openDialog b _)
    · next hidle => exact .quits h (eq_false_of_ne_true hidle)
  · exact .changes (changes_execute b hquit)

/-! ### Dialogs -/

/-- The first button of a dialog adds a line, or does what was confirmed. -/
theorem outcome_accept {event : Event} {dialog : Dialog}
    (hconfirms : ∀ title message button,
      dialog = .confirm title message button .quitWhileExtracting → ConfirmsQuit b event) :
    Outcome b event (b.press dialog .ok) := by
  have hclosed := changes_closeDialog b
  cases dialog with
  | input title prompt line button => exact .changes (hclosed.trans (changes_addLine _ line.text))
  | confirm title message button purpose =>
      cases purpose with
      | quitWhileExtracting => exact .confirmed (hconfirms title message button rfl)
      | abortExtraction => exact .changes (hclosed.trans (changes_abortExtraction _))
  | options _ | error _ _ | message _ _ | help _ => exact .changes hclosed

theorem code_of_confirm {code : KeyCode} (h : Dialog.confirmCommand? code = some .confirm) :
    code = .enter := by
  unfold Dialog.confirmCommand? at h
  split at h <;> first | rfl | cases h

theorem code_of_accept {code : KeyCode} (h : Dialog.confirmCommand? code = some .accept) :
    code = .char 'y' ∨ code = .char 'Y' := by
  unfold Dialog.confirmCommand? at h
  split at h <;> first | exact .inl rfl | exact .inr rfl | cases h

theorem outcome_command {k : KeyPress} {dialog : Dialog} {command : DialogCommand}
    (hdialog : b.dialog = some dialog) (hcommand : dialog.command? k = some command) :
    Outcome b (.key k) (b.command dialog command) := by
  have hclosed := changes_closeDialog b
  cases command with
  | close => exact .changes hclosed
  | confirm =>
      cases dialog with
      | input title prompt line button =>
          cases button with
          | ok =>
              show Outcome b (.key k) (b.press (.input title prompt line .ok) .ok)
              exact outcome_accept nofun
          | cancel => exact .changes hclosed
      | confirm title message button purpose =>
          cases button with
          | ok =>
              show Outcome b (.key k) (b.press (.confirm title message .ok purpose) .ok)
              refine outcome_accept fun title message button heq => ?_
              cases heq
              exact ⟨k, _, _, _, rfl, hdialog, .inr (.inr ⟨code_of_confirm hcommand, rfl⟩)⟩
          | cancel => exact .changes hclosed
      | options _ | error _ _ | message _ _ | help _ => exact .changes hclosed
  | accept =>
      refine outcome_accept fun title message button heq => ?_
      subst heq
      have hcode := code_of_accept hcommand
      exact ⟨k, title, message, button, rfl, hdialog, hcode.imp_right .inl⟩
  | toggleButton => exact .changes (changes_openDialog b _)
  | edit op => exact .changes (changes_edit b dialog op)
  | changeOption =>
      cases dialog with
      | options i =>
          rw [Browser.command, changeOption]
          split
          · exact .toggled _
          · exact .changes (.refl b)
      | input _ _ _ _ | confirm _ _ _ _ | error _ _ | message _ _ | help _ => exact .changes (.refl b)
  | resetOptions => exact .reset
  | nextOption | prevOption | scrollDown | scrollUp =>
      cases dialog with
      | options _ | help _ | input _ _ _ _ | confirm _ _ _ _ | error _ _ | message _ _ =>
          exact .changes Change.shown.changes

/-- Every event has one of the listed outcomes. -/
theorem outcome (b : Browser) (event : Event) : Outcome b event (b.step event) := by
  cases haction : b.action? event with
  | some action =>
      rw [step_of_action haction]
      exact outcome_of_action haction
  | none =>
      cases event with
      | key k =>
          rw [step, key]
          cases hdialog : b.dialog with
          | some dialog =>
              simp only
              split
              · next command hcommand => exact outcome_command hdialog hcommand
              · exact .changes (.refl b)
          | none =>
              simp only [action?, hdialog] at haction
              simp only [haction]
              exact .changes (.refl b)
      | paste text =>
          rw [step, paste]
          split
          · exact .changes (changes_edit b _ _)
          · exact .changes (.refl b)
      | action action => cases haction
      | addFiles paths => exact .changes (changes_addFiles b paths)
      | toggleOption f => exact .toggled f
      | resetOptions => exact .reset
      | abortExtraction => exact .changes (changes_abortExtraction b)
      | resize screen => exact .changes Change.shown.changes
      | tick => exact .polls (changes_tick b)
      | worker action => exact .changes (Change.passed (.worker action) (.inl rfl)).changes
      | files store => exact .changes (Change.passed (.storage fun _ => store) (.inl rfl)).changes

end InstallerBrowser.Browser
