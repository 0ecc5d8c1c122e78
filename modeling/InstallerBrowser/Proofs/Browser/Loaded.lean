import InstallerBrowser.Proofs.Browser.Effects

/-!
# InstallerBrowser.Proofs.Browser.Loaded

The file of the loaded installer and the queue.

A file is in the queue when its load starts, and only a removal takes files out again, so what is
loaded or being loaded stays in the queue (`Backed`) as long as removals take the installer along.
They do so unless a call is under way, and the one call that does not lock the queue is a question
on the options: `Strands` is that case.  `backed_step` is the invariant's step, and
`loadedQueued_run` says that nothing else ever parts the two.
-/

namespace InstallerBrowser

theorem Path.same_iff {a b : String} :
    Path.same a b = true ↔ Path.components a = Path.components b := beq_iff_eq

namespace Session

variable {Q : String → Prop} {s t : Session}

/-- The files that a session has loaded or is loading have a property. -/
def Names (Q : String → Prop) (s : Session) : Prop :=
  ∀ path, s.loadedFile = some path ∨ s.pendingFile = some path → Q path

theorem Names.congr (h : Names Q s) (hloaded : t.loadedFile = s.loadedFile)
    (hpending : t.pendingFile = s.pendingFile) : Names Q t := by
  rw [Names, hloaded, hpending]
  exact h

theorem Names.afterFailure (h : Names Q s) (kind : CallKind) : Names Q (s.afterFailure kind) := by
  cases kind with
  | load | list => exact fun path hpath => h path (.inl (hpath.resolve_right nofun))
  | extract | optionsDiffer => exact h

/-- Handling a reply names no other file: the one that was being loaded becomes the loaded one. -/
theorem Names.onReply (h : Names Q s) (kind : CallKind) (result : Except AppError String) :
    Names Q (s.onEvent (.reply kind result)).1 := by
  have hfreed : Names Q { s with inFlight := none } := h
  have hreply := replyResult s kind result
  generalize s.onEvent (.reply kind result) = r at hreply
  cases hreply with
  | faulty _ => exact hfreed.afterFailure kind
  | unlisted _ _ _ => exact (hfreed.afterFailure .load).congr rfl rfl
  | listed _ _ _ => exact fun path hpath => h path (.inr (hpath.resolve_right nofun))
  | loaded _ _ _ _ _ | completed _ _ _ _ _ | uncommitted _ _ | aborted _ _ _ | undiscarded _ _
  | answered _ => exact h

theorem stable_names (Q : String → Prop) : Stable (Names Q) := by
  refine stable_of_replies (fun _ h => h) (fun _ _ _ h => h)
    (fun _ kind result _ h => h.onReply kind result) fun s kind _ h => ?_
  have hfreed : Names Q { s with inFlight := none } := h
  exact hfreed.afterFailure kind

theorem names_extract (h : Names Q s) : Names Q s.extract.1 := by
  have hextract := extractResult s
  generalize s.extract = r at hextract
  cases hextract with
  | busy _ | unready _ _ | unopened _ _ _ | refused _ _ _ _ _ | sent _ _ _ _ _ _ => exact h

theorem names_abort (h : Names Q s) : Names Q s.abort.1 := by
  rcases abort_cases s with heq | ⟨_, _, progress, log, heq⟩
  · rw [heq]
    exact h
  · rw [heq]
    exact h

theorem names_selectLanguage (h : Names Q s) (i : Nat) : Names Q (s.selectLanguage i).1 := by
  rcases selectLanguage_cases s i with heq | ⟨_, heq⟩
  · rw [heq]
    exact h
  · rw [heq]
    exact h

theorem names_changeTree (h : Names Q s) (op : SelectionTree.Operation) :
    Names Q (s.changeTree op) := by
  rcases changeTree_cases s op with heq | ⟨tree, _, heq⟩
  · rw [heq]
    exact h
  · rw [heq]
    exact h

theorem names_shutdown (h : Names Q s) : Names Q s.shutdown := by
  obtain ⟨_, files, output, heq⟩ := shutdown_eq s
  rw [heq]
  exact h

theorem names_load_of_error (h : Names Q s) {file : String} {options : Options} {e : AppError}
    (herror : (s.load file options).2 = .error e) : Names Q (s.load file options).1 := by
  have hload := loadResult s file options
  generalize s.load file options = r at hload herror
  cases hload with
  | busy _ | locked _ _ => exact h
  | refused _ _ _ => exact fun path hpath => h path (.inr (hpath.resolve_left nofun))
  | sent log _ _ _ => cases herror

theorem names_load_of_ok {file : String} {options : Options} (hfile : Q file)
    (hok : (s.load file options).2 = .ok ()) : Names Q (s.load file options).1 := by
  have hload := loadResult s file options
  generalize s.load file options = r at hload hok
  cases hload with
  | busy _ | locked _ _ | refused _ _ _ => cases hok
  | sent log _ _ _ => exact fun path hpath => Option.some.inj (hpath.resolve_left nofun) ▸ hfile

end Session

namespace Browser

variable {b c : Browser} {event : Event}

/-! ## What is in the queue -/

/-- The file of the loaded installer is in the queue. -/
def LoadedQueued (b : Browser) : Prop :=
  ∀ path, b.session.loadedFile = some path → b.isQueued path = true

/-- The files that are loaded or being loaded are in the queue. -/
def Backed (b : Browser) : Prop := b.session.Names fun path => b.isQueued path = true

/-- An event takes the loaded file out of the queue, where it is only once, while the engine is
asked on the options. -/
def Strands (b : Browser) (event : Event) : Prop :=
  b.action? event = some .removeFile ∧ b.session.state.isLocked = false ∧
    b.session.inFlight = some .optionsDiffer ∧
    ∃ i f, b.queue.selected = some i ∧ b.queue.files[i]? = some f ∧
      b.isLastLoaded (b.queueWithout i) f = true

theorem Backed.loadedQueued (h : Backed b) : LoadedQueued b := fun path hpath => h path (.inl hpath)

theorem isQueued_iff {path : String} :
    b.isQueued path = true ↔ ∃ f ∈ b.queue.files, Path.same f.path path = true := List.any_eq_true

theorem backed_of_subset (hqueue : b.queue.files ⊆ c.queue.files)
    (hsession : c.session.Names fun path => b.isQueued path = true) : Backed c := by
  intro path hpath
  obtain ⟨f, hf, hsame⟩ := isQueued_iff.mp (hsession path hpath)
  exact isQueued_iff.mpr ⟨f, hqueue hf, hsame⟩

theorem Backed.alike (h : Backed b) (halike : Alike b c) : Backed c := by
  obtain ⟨log, files, hsession⟩ := halike.session
  have hqueue : b.queue.files ⊆ c.queue.files := by rw [halike.queue]; exact List.Subset.refl _
  have hnames : c.session.Names fun path => b.isQueued path = true := by rw [hsession]; exact h
  exact backed_of_subset hqueue hnames

theorem Backed.asked (h : Backed b) (hasked : Asked b c) : Backed c := by
  cases hasked with
  | waits _ | sent _ _ _ | refused _ _ _ => exact h

theorem Backed.polled (h : Backed b) (horder : b.session.InOrder) : Backed b.polled :=
  (Session.stable_names _).poll horder.slot h

theorem isQueued_of_selectedFile {f : QueuedFile} (h : b.queue.selectedFile = some f) :
    b.isQueued f.path = true := by
  obtain ⟨i, _, hf⟩ := Option.bind_eq_some_iff.mp h
  exact isQueued_iff.mpr ⟨f, List.mem_of_getElem? hf, Path.same_iff.mpr rfl⟩

theorem Backed.effect (h : Backed b) (heffect : Effect b c) : Backed c := by
  cases heffect with
  | nothing | changed _ _ _ => exact h
  | moved queue hfiles => exact backed_of_subset (hfiles.symm ▸ List.Subset.refl b.queue.files) h
  | added files _ => exact backed_of_subset (List.subset_append_left _ _) h
  | passed step hstep =>
      cases hstep with
      | extract => exact Session.names_extract h
      | abort => exact Session.names_abort h
      | changeTree op => exact Session.names_changeTree h op
      | selectLanguage i _ => exact Session.names_selectLanguage h i
  | loaded f hf hok => exact Session.names_load_of_ok (isQueued_of_selectedFile hf) hok
  | unloaded f e herror => exact Session.names_load_of_error h herror
  | checked o _ _ _ hasked =>
      have hchanged : Backed
          { b with options := b.options.setOptions o, driftCheckPending := true } := h
      exact hchanged.asked hasked
  | quit => exact Session.names_shutdown h

theorem Backed.ticked (h : Backed b) (horder : b.session.InOrder) (hticked : Ticked b c) :
    Backed c := by
  cases hticked with
  | polled _ => exact h.polled horder
  | asked _ hasked => exact (h.polled horder).asked hasked

/-! ## Removals -/

theorem mem_files_queueWithout {i : Nat} {f g : QueuedFile} (hf : b.queue.files[i]? = some f)
    (hg : g ∈ b.queue.files) (hne : g ≠ f) : g ∈ (b.queueWithout i).files := by
  obtain ⟨j, hj⟩ := List.getElem?_of_mem hg
  refine List.mem_eraseIdx_iff_getElem?.mpr ⟨j, fun heq => hne ?_, hj⟩
  rw [heq, hf] at hj
  exact (Option.some.inj hj).symm

/-- A file that is not the last copy of what is loaded leaves a copy in the queue. -/
theorem isQueued_of_kept {i : Nat} {f : QueuedFile} {path : String}
    (hf : b.queue.files[i]? = some f) (hkept : b.isLastLoaded (b.queueWithout i) f = false)
    (hloaded : b.session.loadedFile = some path) (hqueued : b.isQueued path = true) :
    { b with queue := b.queueWithout i }.isQueued path = true := by
  cases hsame : Path.same path f.path with
  | true =>
      -- The file that goes is a copy itself, so there must be another.
      have hother : (b.queueWithout i).files.any (fun g => Path.same g.path f.path) = true := by
        simpa [isLastLoaded, isLoaded, hloaded, hsame] using hkept
      obtain ⟨g, hg, hcopy⟩ := List.any_eq_true.mp hother
      have heq := (Path.same_iff.mp hcopy).trans (Path.same_iff.mp hsame).symm
      exact isQueued_iff.mpr ⟨g, hg, Path.same_iff.mpr heq⟩
  | false =>
      obtain ⟨g, hg, hcopy⟩ := isQueued_iff.mp hqueued
      have hne : g ≠ f := by
        rintro rfl
        have heq := Path.same_iff.mpr (Path.same_iff.mp hcopy).symm
        cases hsame.symm.trans heq
      exact isQueued_iff.mpr ⟨g, mem_files_queueWithout hf hg hne, hcopy⟩

theorem Backed.removal (h : Backed b) (horder : b.session.InOrder)
    (hremove : b.action? event = some .removeFile) (hstays : ¬ Strands b event)
    (hremoval : Removal b c) : Backed c := by
  cases hremoval with
  | nothing _ => exact h
  | kept hstate _ hf hkept =>
      have hpending := (horder.stage.of_unlocked hstate).2
      intro path hpath
      have hloaded := hpath.resolve_right (by simp [hpending])
      exact isQueued_of_kept hf hkept hloaded (h path hpath)
  | discarded _ _ _ _ _ => exact fun path hpath => nomatch hpath
  | stranded hstate hselected hf hlast hbusy =>
      have hslot := (horder.stage.of_unlocked hstate).1.resolve_left hbusy
      exact absurd ⟨hremove, hstate, hslot, _, _, hselected, hf, hlast⟩ hstays

/-- Every event but a stranding removal keeps in the queue what is loaded or being loaded. -/
theorem backed_step (h : Backed b) (horder : b.session.InOrder) (hstays : ¬ Strands b event) :
    Backed (b.step event) := by
  cases stepped b event with
  | removes hremove hremoval hshown => exact (h.removal horder hremove hstays hremoval).alike hshown
  | acts _ heq =>
      rw [heq]
      exact h
  | ticks _ hticked hshown => exact (h.ticked horder hticked).alike hshown
  | does _ _ hdoes =>
      obtain ⟨b', c', hbefore, heffect, hafter⟩ := hdoes
      exact ((h.alike hbefore).effect heffect).alike hafter

/-! ## Removals that strand the installer -/

/-- A stranding removal takes the file out of the queue and leaves the session as it is. -/
theorem Removal.of_strands (h : Removal b c) (hstrands : Strands b event) : ∃ i f,
    b.queue.selected = some i ∧ b.queue.files[i]? = some f ∧
      b.isLastLoaded (b.queueWithout i) f = true ∧ c = { b with queue := b.queueWithout i } := by
  obtain ⟨_, hstate, hslot, i, f, hselected, hf, hlast⟩ := hstrands
  have hselectedFile : b.queue.selectedFile = some f := by
    simp [FileQueue.selectedFile, hselected, hf]
  refine ⟨i, f, hselected, hf, hlast, ?_⟩
  cases h with
  | kept _ hselected' hf' hkept =>
      cases hselected.symm.trans hselected'
      cases hf.symm.trans hf'
      cases hlast.symm.trans hkept
  | discarded _ _ _ _ hfree => cases hslot.symm.trans hfree
  | stranded _ hselected' _ _ _ =>
      cases hselected.symm.trans hselected'
      rfl
  | nothing hnothing =>
      rcases hnothing with hlocked | hnone
      · cases hstate.symm.trans hlocked
      · cases hselectedFile.symm.trans hnone

theorem step_of_strands (hstrands : Strands b event) {path : String}
    (hloaded : b.session.loadedFile = some path) :
    (b.step event).session.loadedFile = some path ∧ (b.step event).isQueued path = false ∧
      (b.step event).session.state = b.session.state := by
  obtain ⟨c, hremoval, hshown⟩ := removal_step hstrands.1
  obtain ⟨i, f, _, _, hlast, rfl⟩ := hremoval.of_strands hstrands
  obtain ⟨log, files, hsession⟩ := hshown.session
  rw [isLastLoaded, Bool.and_eq_true, Bool.not_eq_true', isLoaded, hloaded] at hlast
  obtain ⟨hsame, hnone⟩ := hlast
  refine ⟨by rw [hsession]; exact hloaded, ?_, by rw [hsession]⟩
  rw [isQueued, hshown.queue, List.any_eq_false]
  intro g hg hcopy
  have heq := (Path.same_iff.mp hcopy).trans (Path.same_iff.mp hsame)
  exact List.any_eq_false.mp hnone g hg (Path.same_iff.mpr heq)

theorem not_loadedQueued_of_strands (hstrands : Strands b event) :
    ¬ LoadedQueued (b.step event) := by
  obtain ⟨_, _, _, i, f, _, _, hlast⟩ := id hstrands
  intro h
  cases hloaded : b.session.loadedFile with
  | none => simp [isLastLoaded, isLoaded, hloaded] at hlast
  | some path =>
      obtain ⟨hloaded', hgone, _⟩ := step_of_strands hstrands hloaded
      cases hgone.symm.trans (h path hloaded')

/-- Any other removal keeps a copy of what is loaded, or gives it up. -/
theorem removal_of_not_strands (horder : b.session.InOrder)
    (hremove : b.action? event = some .removeFile) (hstays : ¬ Strands b event) {path : String}
    (hloaded : b.session.loadedFile = some path) (hqueued : b.isQueued path = true) :
    (b.step event).session.loadedFile = some path ∧ (b.step event).isQueued path = true ∨
      (b.step event).session.loadedFile = none ∧ (b.step event).session.state = .idle := by
  obtain ⟨c, hremoval, hshown⟩ := removal_step hremove
  obtain ⟨log, files, hsession⟩ := hshown.session
  have hqueue : (b.step event).isQueued path = c.isQueued path := by
    rw [isQueued, hshown.queue, isQueued]
  rw [hsession, hqueue]
  cases hremoval with
  | nothing _ => exact .inl ⟨hloaded, hqueued⟩
  | kept _ _ hf hkept => exact .inl ⟨hloaded, isQueued_of_kept hf hkept hloaded hqueued⟩
  | discarded _ _ _ _ _ => exact .inr ⟨rfl, rfl⟩
  | stranded hstate hselected hf hlast hbusy =>
      have hslot := (horder.stage.of_unlocked hstate).1.resolve_left hbusy
      exact absurd ⟨hremove, hstate, hslot, _, _, hselected, hf, hlast⟩ hstays

/-! ## Runs -/

theorem Backed.run {events : List Event} (h : Backed b) (horder : b.session.InOrder)
    (hstays : ∀ before event, before ++ [event] <+: events → ¬ Strands (b.run before) event) :
    Backed (b.run events) := by
  induction events generalizing b with
  | nil => exact h
  | cons event rest ih =>
      have hfirst : ¬ Strands b event := hstays [] event (List.prefix_append [event] rest)
      refine ih (backed_step h horder hfirst) (session_step kept_inOrder event horder) ?_
      intro before event' hprefix
      exact hstays (event :: before) event' (List.prefix_cons_inj event |>.mpr hprefix)

/-- **What is loaded stays queued**, but for one kind of event: the loaded installer is in the queue
at every moment of a run exactly if no event of the run strands it. A removal that strands the
installer leaves it loaded, in the same state and out of the queue; any other keeps another copy of
what is loaded, or ends with the session idle. -/
theorem loadedQueued_run (config : Config) (env : Config.Environment) (dir : String)
    (files : FileStore) (events : List Event) :
    let start := new config env dir files
    let b := start.run events
    ((∀ before, before <+: events → LoadedQueued (start.run before)) ↔
        ∀ before event, before ++ [event] <+: events → ¬ Strands (start.run before) event) ∧
      ∀ event path, b.action? event = some .removeFile → b.session.loadedFile = some path →
        b.isQueued path = true →
        (Strands b event → (b.step event).session.loadedFile = some path ∧
          (b.step event).isQueued path = false ∧
          (b.step event).session.state = b.session.state) ∧
        (¬ Strands b event →
          (b.step event).session.loadedFile = some path ∧ (b.step event).isQueued path = true ∨
            (b.step event).session.loadedFile = none ∧ (b.step event).session.state = .idle) := by
  intro start b
  refine ⟨⟨fun h before event hprefix hstrands => ?_, fun h before hprefix => ?_⟩,
    fun event path hremove hloaded hqueued => ⟨fun hstrands => step_of_strands hstrands hloaded,
      fun hstays => removal_of_not_strands (inOrder_run config env dir files events) hremove hstays
        hloaded hqueued⟩⟩
  · have hafter := h (before ++ [event]) hprefix
    rw [run_append] at hafter
    exact not_loadedQueued_of_strands hstrands hafter
  · have hbacked : Backed start := fun path hpath => by
      rcases hpath with hloaded | hpending
      · cases hloaded
      · cases hpending
    have horder : start.session.InOrder := inOrder_run config env dir files []
    exact (hbacked.run horder fun before' event hprefix' =>
      h before' event (hprefix'.trans hprefix)).loadedQueued

/-- Removing the file of an installer while no call is under way gives the installer up. -/
theorem loadedQueued_run_setup :
    let b := (new {} atHome "out" setupFiles).run setupEvents
    let c := b.step (.action .removeFile)
    b.session.loadedFile = some "setup.exe" ∧ b.isQueued "setup.exe" = true ∧
      ¬ Strands b (.action .removeFile) ∧
      (c.session.loadedFile = some "setup.exe" ∧ c.isQueued "setup.exe" = true ∨
        c.session.loadedFile = none ∧ c.session.state = .idle) := by
  intro b c
  have hloaded : b.session.loadedFile = some "setup.exe" := by decide +kernel
  have hqueued : b.isQueued "setup.exe" = true := by decide +kernel
  have hfree : b.session.inFlight = none := by decide +kernel
  have hstays : ¬ Strands b (.action .removeFile) := fun h => nomatch hfree.symm.trans h.2.2.1
  obtain ⟨_, hremovals⟩ := loadedQueued_run {} atHome "out" setupFiles setupEvents
  have hremoval := hremovals (.action .removeFile) "setup.exe" rfl hloaded hqueued
  exact ⟨hloaded, hqueued, hstays, hremoval.2 hstays⟩

/-- Removed while the engine is asked on the options, the file is gone from the queue, and its
installer is still there. -/
theorem not_loadedQueued_asking :
    let b := (new {} atHome "out" setupFiles).run
      (setupEvents ++ [.toggleOption .excludeTemps, .action .removeFile])
    b.session.loadedFile = some "setup.exe" ∧ b.session.state = .ready ∧ b.queue.files = [] ∧
      ¬ LoadedQueued b := by
  intro b
  have hloaded : b.session.loadedFile = some "setup.exe" := by decide +kernel
  have hgone : b.isQueued "setup.exe" = false := by decide +kernel
  exact ⟨hloaded, by decide +kernel, by decide +kernel,
    fun h => absurd (hgone.symm.trans (h _ hloaded)) nofun⟩

end Browser

end InstallerBrowser
