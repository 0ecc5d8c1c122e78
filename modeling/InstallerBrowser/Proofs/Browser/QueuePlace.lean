import InstallerBrowser.Proofs.Browser.Effects

/-!
# InstallerBrowser.Proofs.Browser.QueuePlace

How far the panel of the queue is scrolled.

Apart from the moves in the queue, no event scrolls its panel: an event leaves the queue and the
scroll position alone, or it adds or removes files, and then the position is only kept among the
files (`Listed`).  What is selected may change with the files, and what is shown with the screen;
the scroll position follows neither (`listed_step`).

Moves, files that are added and files that are removed are operations on the queue, and nothing else
changes it, so what a queue keeps is kept by every run of a browser (`exists_queue_run`).
-/

namespace InstallerBrowser.Browser

variable {b b' c d : Browser} {event : Event}

/-- What is queued, and how far the panel of the queue is scrolled. -/
def place (b : Browser) : FileQueue × Nat := (b.queue, b.queueScroll)

/-! ## What scrolls nothing -/

@[simp] theorem place_tellLocked (b : Browser) (what : String) :
    (b.tellLocked what).place = b.place := rfl

@[simp] theorem place_quit (b : Browser) : b.quit.place = b.place := by
  unfold quit
  split <;> rfl

/-! ### The tree -/

@[simp] theorem place_moveTreeCursor (b : Browser) (row : Nat) :
    (b.moveTreeCursor row).place = b.place := rfl

@[simp] theorem place_mapTree (b : Browser) (f : SelectionTree → SelectionTree) :
    (b.mapTree f).place = b.place := by
  unfold mapTree
  split <;> rfl

@[simp] theorem place_mapMarks (b : Browser) (f : SelectionTree → SelectionTree) :
    (b.mapMarks f).place = b.place := by
  unfold mapMarks
  split <;> rfl

@[simp] theorem place_clampTree (b : Browser) : b.clampTree.place = b.place := rfl

@[simp] theorem place_collapse (b : Browser) : b.collapse.place = b.place := by
  unfold collapse
  split
  · split <;> simp
  · rfl

@[simp] theorem place_expand (b : Browser) : b.expand.place = b.place := by
  unfold expand
  split
  · split
    · rfl
    · split <;> simp
  · rfl

@[simp] theorem place_toggleCheck (b : Browser) : b.toggleCheck.place = b.place := by
  unfold toggleCheck
  split
  · rfl
  · split <;> simp

/-! ### The session -/

@[simp] theorem place_loadSelected (b : Browser) : b.loadSelected.place = b.place := by
  unfold loadSelected
  split
  · rfl
  · split <;> rfl

@[simp] theorem place_activate (b : Browser) : b.activate.place = b.place := by
  unfold activate
  split
  · exact place_loadSelected b
  · split
    · rfl
    · split <;> simp

@[simp] theorem place_extractSelected (b : Browser) : b.extractSelected.place = b.place := by
  simp only [extractSelected]
  cases b.nothingChecked with
  | true =>
      rw [if_pos rfl]
      split <;> rfl
  | false =>
      rw [if_neg Bool.false_ne_true]
      split <;> rfl

@[simp] theorem place_askToAbort (b : Browser) : b.askToAbort.place = b.place := by
  unfold askToAbort
  split <;> rfl

@[simp] theorem place_abortExtraction (b : Browser) : b.abortExtraction.place = b.place := by
  unfold abortExtraction
  split <;> rfl

@[simp] theorem place_cycleLanguage (b : Browser) (forward : Bool) :
    (b.cycleLanguage forward).place = b.place := by
  simp only [cycleLanguage]
  split
  · split <;> rfl
  · rfl

@[simp] theorem place_saveLog (b : Browser) : b.saveLog.place = b.place := by
  unfold saveLog
  split
  · split <;> rfl
  · rfl

@[simp] theorem place_discardInstaller (b : Browser) : b.discardInstaller.place = b.place := by
  unfold discardInstaller
  split <;> rfl

/-! ### The options -/

@[simp] theorem place_requestDriftCheck (b : Browser) : b.requestDriftCheck.place = b.place := by
  unfold requestDriftCheck
  split
  · rfl
  · split <;> rfl

@[simp] theorem place_followDrift (b : Browser) : b.followDrift.place = b.place := by
  unfold followDrift
  split
  · rw [place_requestDriftCheck]
    rfl
  · rfl

@[simp] theorem place_toggleOption (b : Browser) (f : OptionField) :
    (b.toggleOption f).place = b.place := by
  unfold toggleOption
  split
  · rfl
  · simp only [place_followDrift]
    split <;> rfl

@[simp] theorem place_resetOptions (b : Browser) : b.resetOptions.place = b.place := by
  unfold resetOptions
  split
  · rfl
  · split
    · rfl
    · rw [place_followDrift]
      rfl

/-! ### Ticks and dialogs -/

@[simp] theorem place_onEvent (b : Browser) (event : SessionEvent) :
    (b.onEvent event).place = b.place := by
  cases event with
  | status _ | progress _ | loaded _ _ | aborted _ | failed _ => rfl
  | extracted output _ => cases output <;> rfl
  | optionsDiffer differ => cases differ <;> rfl

@[simp] theorem place_poll (b : Browser) : b.poll.place = b.place := by
  have hall : ∀ (events : List SessionEvent) (b : Browser),
      (events.foldl onEvent b).place = b.place := fun events => by
    induction events with
    | nil => exact fun _ => rfl
    | cons event rest ih => exact fun b => (ih _).trans (place_onEvent b event)
  exact hall _ _

@[simp] theorem place_tick (b : Browser) : b.tick.place = b.place := by
  have hpolled := place_poll b
  simp only [tick]
  split
  · exact (place_requestDriftCheck _).trans hpolled
  · exact hpolled

@[simp] theorem place_edit (b : Browser) (dialog : Dialog) (op : LineEdit.Operation) :
    (b.edit dialog op).place = b.place := by
  unfold edit
  split
  · split <;> rfl
  · rfl

@[simp] theorem place_carryOut (b : Browser) (purpose : ConfirmPurpose) :
    (b.carryOut purpose).place = b.place := by
  cases purpose with
  | quitWhileExtracting => rfl
  | abortExtraction => exact place_abortExtraction b

@[simp] theorem place_askForFile (b : Browser) : b.askForFile.place = b.place := by
  unfold askForFile
  split <;> rfl

/-! ## Files -/

/-- The queue and its place are as before, or there are other files and the scroll position is kept
among them. -/
inductive Listed (b c : Browser) : Prop
  | kept : c.place = b.place → Listed b c
  | relisted : c.queue.size ≠ b.queue.size →
      c.queueScroll = min b.queueScroll (c.queue.size - 1) → Listed b c

theorem Listed.congr (h : Listed b c) (hbefore : b.place = b'.place) (hafter : d.place = c.place) :
    Listed b' d := by
  obtain ⟨hqueue, hscroll⟩ := Prod.mk.inj hbefore
  obtain ⟨hqueue', hscroll'⟩ := Prod.mk.inj hafter
  cases h with
  | kept hkept => exact .kept (hafter.trans (hkept.trans hbefore))
  | relisted hsize hclamped =>
      refine .relisted ?_ ?_
      · rwa [hqueue', ← hqueue]
      · rw [hscroll', hqueue', ← hscroll, hclamped]

theorem listed_addFiles (b : Browser) (paths : List String) : Listed b (b.addFiles paths) := by
  cases hlocked : b.session.state.isLocked with
  | true =>
      rw [addFiles, if_pos hlocked]
      exact .kept rfl
  | false =>
      rw [addFiles_of_unlocked hlocked]
      by_cases hnone : (paths.filterMap b.session.files.fileAt?).isEmpty = true
      · simp only [if_pos hnone]
        exact .kept rfl
      · simp only [if_neg hnone]
        refine .relisted ?_ rfl
        show (b.queue.files ++ _).length ≠ b.queue.files.length
        rw [List.isEmpty_iff, ← Ne, ← List.length_pos_iff] at hnone
        rw [List.length_append]
        omega

theorem listed_addLine (b : Browser) (line : String) : Listed b (b.addLine line) := by
  unfold addLine
  split
  · exact .kept rfl
  · exact listed_addFiles b _

theorem listed_removeSelected (b : Browser) : Listed b b.removeSelected := by
  unfold removeSelected
  split
  · exact .kept rfl
  · split
    · exact .kept rfl
    · next i _ =>
        split
        · exact .kept rfl
        · next queue f hremove =>
            have hsize := FileQueue.size_of_remove hremove
            have hless : ∀ c : Browser, c.place = (queue, b.queueScroll) →
                Listed b c.clampQueueScroll := fun c hplace => by
              obtain ⟨hqueue, hscroll⟩ := Prod.mk.inj hplace
              refine .relisted ?_ (congrArg (min · _) hscroll)
              show c.queue.size ≠ b.queue.size
              rw [hqueue]
              omega
            simp only
            split
            · exact hless _ (place_discardInstaller _)
            · exact hless _ rfl

/-! ## Events -/

/-- The moves. -/
def moves : List Action := [.moveUp, .moveDown, .goToTop, .goToBottom]

/-- A move that goes to the queue. -/
def MovesInQueue (b : Browser) (event : Event) : Prop :=
  b.layout.focus = .queue ∧ ∃ action ∈ moves, b.action? event = some action

theorem listed_press (b : Browser) (dialog : Dialog) (button : DialogButton) :
    Listed b (b.press dialog button) := by
  cases button with
  | cancel => exact .kept rfl
  | ok =>
      cases dialog with
      | input _ _ line _ => exact (listed_addLine b.closeDialog line.text).congr rfl rfl
      | confirm _ _ _ purpose => exact .kept (place_carryOut b.closeDialog purpose)
      | options _ | error _ _ | message _ _ | help _ => exact .kept rfl

theorem listed_command (b : Browser) (dialog : Dialog) (command : DialogCommand) :
    Listed b (b.command dialog command) := by
  cases command with
  | close | toggleButton => exact .kept rfl
  | confirm =>
      cases dialog with
      | input title prompt line button =>
          exact listed_press b (.input title prompt line button) button
      | confirm title message button purpose =>
          exact listed_press b (.confirm title message button purpose) button
      | options _ | error _ _ | message _ _ | help _ => exact .kept rfl
  | accept => exact listed_press b dialog .ok
  | edit op => exact .kept (place_edit b dialog op)
  | changeOption =>
      cases dialog with
      | options i =>
          rw [Browser.command, changeOption]
          split
          · exact .kept (place_toggleOption b _)
          · exact .kept rfl
      | input _ _ _ _ | confirm _ _ _ _ | error _ _ | message _ _ | help _ => exact .kept rfl
  | resetOptions => exact .kept (place_resetOptions b)
  | nextOption | prevOption | scrollDown | scrollUp =>
      cases dialog with
      | options _ | help _ | input _ _ _ _ | confirm _ _ _ _ | error _ _ | message _ _ =>
          exact .kept rfl

theorem listed_execute {action : Action} (h : b.layout.focus = .queue → action ∉ moves) :
    Listed b (b.execute action) := by
  cases action with
  | moveUp | moveDown | goToTop | goToBottom =>
      cases hfocus : b.layout.focus with
      | queue => exact absurd (by decide) (h hfocus)
      | tree =>
          simp only [execute, moveUp, moveDown, goToTop, goToBottom, hfocus]
          exact .kept (place_moveTreeCursor b _)
  | focusNext | showOptions | showHelp => exact .kept rfl
  | collapse => exact .kept (place_collapse b)
  | expand => exact .kept (place_expand b)
  | activate => exact .kept (place_activate b)
  | toggleCheck => exact .kept (place_toggleCheck b)
  | checkAll | uncheckAll => exact .kept (place_mapMarks b _)
  | addFile => exact .kept (place_askForFile b)
  | removeFile => exact listed_removeSelected b
  | loadInstaller => exact .kept (place_loadSelected b)
  | extract => exact .kept (place_extractSelected b)
  | abort => exact .kept (place_askToAbort b)
  | nextLanguage | prevLanguage => exact .kept (place_cycleLanguage b _)
  | saveLog => exact .kept (place_saveLog b)
  | quit => exact .kept (place_quit b)

/-- **What no move scrolls**: an event that is no move in the queue leaves the queue and its scroll
position alone, or only keeps the position among the files that it adds to or removes from. -/
theorem listed_step {event : Event} (h : ¬ MovesInQueue b event) : Listed b (b.step event) := by
  cases haction : b.action? event with
  | some action =>
      rw [step_of_action haction]
      exact listed_execute fun hfocus hmove => h ⟨hfocus, action, hmove, haction⟩
  | none =>
      cases event with
      | key k =>
          rw [step, key]
          cases hdialog : b.dialog with
          | some dialog =>
              simp only
              split
              · exact listed_command b dialog _
              · exact .kept rfl
          | none =>
              simp only [action?, hdialog] at haction
              simp only [haction]
              exact .kept rfl
      | paste text =>
          rw [step, paste]
          split
          · exact .kept (place_edit b _ _)
          · exact .kept rfl
      | action action => cases haction
      | addFiles paths => exact listed_addFiles b paths
      | toggleOption f => exact .kept (place_toggleOption b f)
      | resetOptions => exact .kept (place_resetOptions b)
      | abortExtraction => exact .kept (place_abortExtraction b)
      | tick => exact .kept (place_tick b)
      | resize _ | worker _ | files _ => exact .kept rfl

/-! ## Operations on the queue -/

theorem queue_moveInQueue (b : Browser) (f : FileQueue → FileQueue) :
    (b.moveInQueue f).queue = f b.queue := (alike_showSelected { b with queue := f b.queue }).queue

/-- A move in the queue is an operation on it, and shows what is selected. -/
theorem exists_step_eq_moveInQueue (h : MovesInQueue b event) :
    ∃ op, b.step event = b.moveInQueue (·.step op) := by
  obtain ⟨hfocus, action, haction, hevent⟩ := h
  rw [step_of_action hevent]
  cases action with
  | moveUp => exact ⟨.prev, by rw [execute, moveUp, hfocus]; rfl⟩
  | moveDown => exact ⟨.next, by rw [execute, moveDown, hfocus]; rfl⟩
  | goToTop => exact ⟨.select 0, by rw [execute, goToTop, hfocus]; rfl⟩
  | goToBottom => exact ⟨.select (b.queue.size - 1), by rw [execute, goToBottom, hfocus]; rfl⟩
  | _ => exact absurd haction (by decide)

theorem Removal.exists_queue (h : Removal b c) : ∃ ops, c.queue = b.queue.run ops := by
  cases h with
  | kept _ _ hf _ | discarded _ _ hf _ _ | stranded _ _ hf _ _ =>
      exact ⟨[.remove _], (congrArg Prod.fst (FileQueue.remove_of_getElem? hf)).symm⟩
  | nothing _ => exact ⟨[], rfl⟩

theorem Asked.queue (h : Asked b c) : c.queue = b.queue := by
  cases h with
  | waits _ | sent _ _ _ | refused _ _ _ => rfl

/-- Apart from the moves, what an event does to the queue is to add files or to remove one. -/
theorem exists_queue_still (h : ¬ MovesInQueue b event) :
    ∃ ops, (b.step event).queue = b.queue.run ops := by
  -- `Effect.moved` does not tell what is selected, so the size has to rule it out.
  cases listed_step h with
  | kept hplace => exact ⟨[], (Prod.mk.inj hplace).1⟩
  | relisted hsize _ =>
      cases stepped b event with
      | removes _ hremoval hshown =>
          rw [hshown.queue]
          exact hremoval.exists_queue
      | acts _ heq =>
          rw [heq]
          exact ⟨[], rfl⟩
      | ticks _ hticked hshown =>
          rw [hshown.queue]
          cases hticked with
          | polled _ => exact ⟨[], rfl⟩
          | asked _ hasked => exact ⟨[], hasked.queue⟩
      | does _ _ hdoes =>
          obtain ⟨b', c, hbefore, heffect, hafter⟩ := hdoes
          rw [hafter.queue, ← hbefore.queue]
          rw [hafter.queue, ← hbefore.queue] at hsize
          cases heffect with
          | nothing | passed _ _ | loaded _ _ _ | unloaded _ _ _ | changed _ _ _ | quit =>
              exact ⟨[], rfl⟩
          | moved queue hfiles => exact absurd (congrArg List.length hfiles) hsize
          | added files _ => exact ⟨[.add files], rfl⟩
          | checked _ _ _ _ hasked => exact ⟨[], hasked.queue⟩

theorem exists_queue_run (b : Browser) (events : List Event) :
    ∃ ops, (b.run events).queue = b.queue.run ops := by
  induction events generalizing b with
  | nil => exact ⟨[], rfl⟩
  | cons event rest ih =>
      obtain ⟨more, hmore⟩ := ih (b.step event)
      rw [run_cons, hmore]
      by_cases hmove : MovesInQueue b event
      · obtain ⟨op, hop⟩ := exists_step_eq_moveInQueue hmove
        exact ⟨op :: more, by rw [hop, queue_moveInQueue]; rfl⟩
      · obtain ⟨ops, hops⟩ := exists_queue_still hmove
        exact ⟨ops ++ more, by rw [hops, FileQueue.run_append]⟩

/-- **What is selected is there**: after any events the queue is what operations make of an empty
one, so that a number that is selected is that of a file, which is loaded and removed by it. -/
theorem selected_run (config : Config) (env : Config.Environment) (dir : String)
    (files : FileStore) (events : List Event) :
    let b := (new config env dir files).run events
    (∃ ops, b.queue = FileQueue.run {} ops) ∧
      ∀ i, b.queue.selected = some i →
        ∃ f, b.queue.selectedFile = some f ∧ (b.queue.remove i).2 = some f := by
  intro b
  obtain ⟨ops, hops⟩ := exists_queue_run (new config env dir files) events
  refine ⟨⟨ops, hops⟩, fun i hselected => ?_⟩
  have hin : b.queue.InRange := hops ▸ FileQueue.inRange_new.run ops
  have hf := List.getElem?_eq_getElem (hin i hselected)
  exact ⟨_, by rw [FileQueue.selectedFile, hselected, Option.bind_some, hf],
    by rw [FileQueue.remove_of_getElem? hf]⟩

end InstallerBrowser.Browser
