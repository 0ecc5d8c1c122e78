import InstallerBrowser.Proofs.Session.Stage

/-!
# InstallerBrowser.Proofs.Session.Installer

What a session holds of its installer goes with its state.

`Holding` lists the ways in which the state and the slot go together with the loaded file, the
metadata and the tree: nothing is held, a load has brought the metadata and not yet the tree, or
all three are there.  Handling what the worker has sent leads from one to another
(`stable_furnished`), and so does every operation but a load that a dead worker refuses, which
gives up the installer and stays in its state (`furnished_step`).  The language that is chosen
fits the metadata whatever happens (`fits_run`).
-/

namespace InstallerBrowser.Session

variable {s t : Session} {kind : CallKind}

/-! ## Holdings -/

/-- How the state and the slot go together with the loaded file, the metadata and the tree. -/
inductive Holding : SessionState → Option CallKind →
    Option String → Option Metadata → Option SelectionTree → Prop
  | nothing {state slot} : state = .idle ∨ state = .error → Holding state slot none none none
  | loading : Holding .loading (some .load) none none none
  | listing (metadata) : Holding .loading (some .list) none (some metadata) none
  | installer {state slot} (file metadata tree) : state ≠ .idle → state ≠ .loading →
      Holding state slot (some file) (some metadata) (some tree)

/-- The state and the slot of a session go together with what it holds of an installer. -/
def Holds (s : Session) : Prop := Holding s.state s.inFlight s.loadedFile s.metadata s.tree

/-- What a session holds goes together, its pending file included. -/
structure Furnished (s : Session) : Prop where
  stage : OnStage s
  holds : Holds s

theorem furnished_new (files : FileStore) (log : Log) (dir : String) :
    Furnished (new files log dir) := ⟨onStage_new files log dir, .nothing (.inl rfl)⟩

theorem Holds.of_load (h : Holds s) (hslot : s.inFlight = some .load) (hstate : s.state = .loading) :
    s.loadedFile = none ∧ s.metadata = none ∧ s.tree = none := by
  rw [Holds, hslot, hstate] at h
  generalize s.loadedFile = file, s.metadata = metadata, s.tree = tree at h
  cases h with
  | nothing hstate => simp at hstate
  | loading => exact ⟨rfl, rfl, rfl⟩
  | installer _ _ _ _ hloading => exact absurd rfl hloading

theorem Holds.of_list (h : Holds s) (hslot : s.inFlight = some .list) (hstate : s.state = .loading) :
    s.loadedFile = none ∧ (∃ metadata, s.metadata = some metadata) ∧ s.tree = none := by
  rw [Holds, hslot, hstate] at h
  generalize s.loadedFile = file, s.metadata = metadata, s.tree = tree at h
  cases h with
  | nothing hstate => simp at hstate
  | listing metadata => exact ⟨rfl, ⟨metadata, rfl⟩, rfl⟩
  | installer _ _ _ _ hloading => exact absurd rfl hloading

/-- An installer is there in every state that only an installer leads to. -/
theorem Holds.of_installer (h : Holds s)
    (hstate : s.state = .ready ∨ s.state = .extracting ∨ s.state = .aborting) :
    ∃ file metadata tree,
      s.loadedFile = some file ∧ s.metadata = some metadata ∧ s.tree = some tree := by
  rw [Holds] at h
  generalize s.state = state, s.inFlight = slot, s.loadedFile = file, s.metadata = metadata,
    s.tree = tree at h hstate
  cases h with
  | nothing hbare => rcases hbare with rfl | rfl <;> simp at hstate
  | loading | listing _ => simp at hstate
  | installer file metadata tree _ _ => exact ⟨file, metadata, tree, rfl, rfl, rfl⟩

/-- While nothing is locked, what is held does not depend on the slot. -/
theorem Holds.reslot (h : Holds s) (hstate : s.state.isLocked = false) (slot : Option CallKind) :
    Holding s.state slot s.loadedFile s.metadata s.tree := by
  rw [Holds] at h
  generalize s.state = state, s.inFlight = old, s.loadedFile = file, s.metadata = metadata,
    s.tree = tree at h hstate
  cases h with
  | nothing hbare => exact .nothing hbare
  | loading | listing _ => cases hstate
  | installer file metadata tree hidle hloading => exact .installer file metadata tree hidle hloading

/-- With an installer the state may go anywhere an installer can be. -/
theorem Holds.restate (h : Holds s)
    (hstate : s.state = .ready ∨ s.state = .extracting ∨ s.state = .aborting) (state : SessionState)
    (slot : Option CallKind) (hidle : state ≠ .idle) (hloading : state ≠ .loading) :
    Holding state slot s.loadedFile s.metadata s.tree := by
  obtain ⟨file, metadata, tree, hfile, hmetadata, htree⟩ := h.of_installer hstate
  rw [hfile, hmetadata, htree]
  exact .installer file metadata tree hidle hloading

/-! ## Handling what was sent -/

/-- A call that fails leaves the installer as it was, unless it was about to bring one. -/
theorem Furnished.afterFailure (h : Furnished s) (hslot : s.inFlight = some kind) :
    Holds ({ s with inFlight := none }.afterFailure kind) := by
  cases kind with
  | load =>
      rw [Holds, Session.afterFailure, (h.holds.of_load hslot (h.stage.of_load hslot).1).1]
      exact .nothing (.inr rfl)
  | list =>
      rw [Holds, Session.afterFailure, (h.holds.of_list hslot (h.stage.of_list hslot).1).1]
      exact .nothing (.inr rfl)
  | extract => exact h.holds.restate (.inr (h.stage.of_extract hslot).1) .error none (by decide) (by decide)
  | optionsDiffer => exact h.holds.reslot (h.stage.of_optionsDiffer hslot).1 none

theorem Furnished.onReply (h : Furnished s) (hslot : s.inFlight = some kind)
    (result : Except AppError String) : Holds (s.onEvent (.reply kind result)).1 := by
  have hreply := replyResult s kind result
  generalize s.onEvent (.reply kind result) = r at hreply
  cases hreply with
  | faulty _ => exact h.afterFailure hslot
  | @loaded _ metadata _ _ _ _ _ =>
      obtain ⟨hstate, _⟩ := h.stage.of_load hslot
      obtain ⟨hfile, _, htree⟩ := h.holds.of_load hslot hstate
      simp only [Holds, hstate, hfile, htree]
      exact .listing metadata
  | unlisted _ _ _ => exact h.afterFailure hslot
  | @listed _ _ tree _ _ _ =>
      -- The tree joins the metadata that the load has brought, and the pending file is the loaded one.
      obtain ⟨hstate, file, hfile⟩ := h.stage.of_list hslot
      obtain ⟨_, ⟨metadata, hmetadata⟩, _⟩ := h.holds.of_list hslot hstate
      simp only [Holds, hfile, hmetadata]
      exact .installer file metadata tree (by decide) (by decide)
  | completed _ _ _ _ _ | aborted _ _ _ =>
      exact h.holds.restate (.inr (h.stage.of_extract hslot).1) .ready none (by decide) (by decide)
  | uncommitted _ _ | undiscarded _ _ =>
      exact h.holds.restate (.inr (h.stage.of_extract hslot).1) .error none (by decide) (by decide)
  | answered _ => exact h.holds.reslot (h.stage.of_optionsDiffer hslot).1 none

theorem stable_furnished : Stable Furnished :=
  stable_of_replies (fun _ h => ⟨h.stage, h.holds⟩) (fun _ _ _ h => ⟨h.stage, h.holds⟩)
    (fun _ _ result hslot h => ⟨h.stage.onReply hslot result, h.onReply hslot result⟩)
    fun _ _ hslot h => ⟨h.stage.afterFailure hslot, h.afterFailure hslot⟩

/-! ## Operations -/

theorem Holds.congr (h : Holds s) (hstate : t.state = s.state) (hslot : t.inFlight = s.inFlight)
    (hfile : t.loadedFile = s.loadedFile) (hmetadata : t.metadata = s.metadata)
    (htree : t.tree = s.tree) : Holds t := by
  rw [Holds, hstate, hslot, hfile, hmetadata, htree]
  exact h

/-- A load gives up the installer, which a living worker makes good by taking the call. -/
theorem Holds.load (h : Holds s) (halive : s.worker.alive = true) (file : String)
    (options : Options) : Holds (s.load file options).1 := by
  have hload := loadResult s file options
  generalize s.load file options = r at hload
  cases hload with
  | busy _ | locked _ _ => exact h
  | refused _ _ hdead => cases halive.symm.trans hdead
  | sent log _ _ _ => exact .loading

theorem Holds.extract (h : Holds s) : Holds s.extract.1 := by
  have hextract := extractResult s
  generalize s.extract = r at hextract
  cases hextract with
  | busy _ | unready _ _ | unopened _ _ _ | refused _ _ _ _ _ => exact h
  | sent progress log _ htree _ _ =>
      exact h.restate (.inl (state_of_editableTree htree)) .extracting _ (by decide) (by decide)

theorem Furnished.abort (h : Furnished s) : Holds s.abort.1 := by
  rcases abort_cases s with heq | ⟨_, hslot, progress, log, heq⟩
  · rw [heq]
    exact h.holds
  · rw [heq]
    exact h.holds.restate (.inr (h.stage.of_extract hslot).1) .aborting _ (by decide) (by decide)

theorem Furnished.checkOptions (h : Furnished s) (options : Options) :
    Holds (s.checkOptions options).1 := by
  have hcheck := checkResult s options
  generalize s.checkOptions options = r at hcheck
  cases hcheck with
  | busy _ | refused _ _ => exact h.holds
  | sent hfree _ => exact h.holds.reslot (h.stage.of_free hfree).1 _

theorem Holds.discardInstaller (h : Holds s) : Holds s.discardInstaller.1 := by
  rcases discardInstaller_cases s with ⟨e, heq⟩ | ⟨_, _, log, heq⟩
  · rw [heq]
    exact h
  · rw [heq]
    exact .nothing (.inl rfl)

theorem Holds.changeTree (h : Holds s) (op : SelectionTree.Operation) :
    Holds (s.changeTree op) := by
  rcases changeTree_cases s op with heq | ⟨tree, htree, heq⟩
  · rw [heq]
    exact h
  · rw [heq]
    rw [Holds, htree] at h
    simp only [Holds]
    generalize s.state = state, s.inFlight = slot, s.loadedFile = file,
      s.metadata = metadata at h
    cases h with
    | installer file metadata _ hidle hloading =>
        exact .installer file metadata (tree.step op) hidle hloading

theorem furnished_step (step : Step) (halive : s.worker.alive = true) (hslot : Slot s [])
    (h : Furnished s) : Furnished (s.step step) := by
  refine ⟨onStage_step step hslot h.stage, ?_⟩
  cases step with
  | load file options => exact h.holds.load halive file options
  | extract => exact h.holds.extract
  | abort => exact h.abort
  | checkOptions options => exact h.checkOptions options
  | selectLanguage i =>
      rcases selectLanguage_cases s i with heq | ⟨_, heq⟩
      · rw [Session.step, heq]
        exact h.holds
      · rw [Session.step, heq]
        exact h.holds
  | discardInstaller => exact h.holds.discardInstaller
  | changeTree op => exact h.holds.changeTree op
  | poll => exact (stable_furnished.poll hslot h).holds
  | shutdown =>
      obtain ⟨_, files, output, heq⟩ := shutdown_eq s
      rw [Session.step, heq]
      exact h.holds
  | worker action => exact h.holds
  | storage change => exact h.holds

/-- What a session holds goes together after any steps that leave the worker alive. -/
theorem furnished_run (files : FileStore) (log : Log) (dir : String) (steps : List Step)
    (halive : ((new files log dir).run steps).worker.alive = true) :
    Furnished ((new files log dir).run steps) := by
  -- A worker that is alive at the end was so all along.
  have hrun := holds_run (P := fun s => s.worker.alive = true → Furnished s)
    ?_ (fun _ (_ : _ ∈ steps) => trivial) (slot_new files log dir)
    fun _ => furnished_new files log dir
  · exact hrun halive
  · intro s step _ hslot hs halive
    have hbefore := alive_of_step halive
    exact furnished_step step hbefore hslot (hs hbefore)

/-! ## The language -/

/-- A choice among some languages: none if there are none, and otherwise one of them. -/
def Fits : Option Nat → List Language → Prop
  | none, languages => languages = []
  | some i, languages => i < languages.length

/-- The first language, if there is one. -/
theorem fits_first (languages : List Language) :
    Fits (if languages.isEmpty then none else some 0) languages := by
  cases languages with
  | nil => rfl
  | cons _ rest => exact Nat.zero_lt_succ rest.length

/-- The language that is chosen is one of those of the metadata. -/
def LanguageFits (s : Session) : Prop := Fits s.language s.languages

theorem LanguageFits.afterFailure (h : LanguageFits s) (kind : CallKind) :
    LanguageFits ({ s with inFlight := none }.afterFailure kind) := by
  cases kind with
  | load | list => rfl
  | extract | optionsDiffer => exact h

theorem stable_languageFits : Stable LanguageFits := by
  refine stable_of_replies (fun _ h => h) (fun _ _ _ h => h) ?_ fun _ kind _ h => h.afterFailure kind
  intro s kind result _ h
  have hreply := replyResult s kind result
  generalize s.onEvent (.reply kind result) = r at hreply
  cases hreply with
  | faulty _ => exact h.afterFailure kind
  | @loaded _ metadata _ _ _ hlanguage _ =>
      rw [LanguageFits, hlanguage]
      exact fits_first metadata.languages
  | unlisted _ _ _ => rfl
  | listed _ _ _ | completed _ _ _ _ _ | uncommitted _ _ | aborted _ _ _ | undiscarded _ _
  | answered _ => exact h

theorem languageFits_step (step : Step) (hslot : Slot s []) (h : LanguageFits s) :
    LanguageFits (s.step step) := by
  cases step with
  | load file options =>
      have hload := loadResult s file options
      rw [Session.step]
      generalize s.load file options = r at hload
      cases hload with
      | busy _ | locked _ _ => exact h
      | refused _ _ _ | sent _ _ _ _ => rfl
  | extract =>
      have hextract := extractResult s
      rw [Session.step]
      generalize s.extract = r at hextract
      cases hextract with
      | busy _ | unready _ _ | unopened _ _ _ | refused _ _ _ _ _ | sent _ _ _ _ _ _ => exact h
  | abort =>
      rcases abort_cases s with heq | ⟨_, _, progress, log, heq⟩
      · rw [Session.step, heq]
        exact h
      · rw [Session.step, heq]
        exact h
  | checkOptions options =>
      have hcheck := checkResult s options
      rw [Session.step]
      generalize s.checkOptions options = r at hcheck
      cases hcheck with
      | busy _ | refused _ _ | sent _ _ => exact h
  | selectLanguage i =>
      rcases selectLanguage_cases s i with heq | ⟨hi, heq⟩
      · rw [Session.step, heq]
        exact h
      · rw [Session.step, heq]
        exact hi
  | discardInstaller =>
      rcases discardInstaller_cases s with ⟨e, heq⟩ | ⟨_, _, log, heq⟩
      · rw [Session.step, heq]
        exact h
      · rw [Session.step, heq]
        rfl
  | changeTree op =>
      rcases changeTree_cases s op with heq | ⟨tree, _, heq⟩
      · rw [Session.step, heq]
        exact h
      · rw [Session.step, heq]
        exact h
  | poll => exact stable_languageFits.poll hslot h
  | shutdown =>
      obtain ⟨_, files, output, heq⟩ := shutdown_eq s
      rw [Session.step, heq]
      exact h
  | worker action => exact h
  | storage change => exact h

theorem fits_run (files : FileStore) (log : Log) (dir : String) (steps : List Step) :
    LanguageFits ((new files log dir).run steps) :=
  holds_run (fun _ step _ hslot => languageFits_step step hslot)
    (fun _ _ => trivial) (slot_new files log dir) rfl

/-! ## What a state says of the installer -/

theorem Holds.of_idle (h : Holds s) (hstate : s.state = .idle) :
    s.loadedFile = none ∧ s.metadata = none ∧ s.tree = none := by
  rw [Holds, hstate] at h
  generalize s.inFlight = slot, s.loadedFile = file, s.metadata = metadata, s.tree = tree at h
  cases h with
  | nothing _ => exact ⟨rfl, rfl, rfl⟩
  | installer _ _ _ hidle _ => exact absurd rfl hidle

theorem Holds.of_loading (h : Holds s) (hstate : s.state = .loading) :
    s.loadedFile = none ∧ s.tree = none ∧ (s.metadata ≠ none ↔ s.inFlight = some .list) := by
  rw [Holds, hstate] at h
  generalize s.inFlight = slot, s.loadedFile = file, s.metadata = metadata, s.tree = tree at h
  cases h with
  | nothing hstate => simp at hstate
  | loading => simp
  | listing metadata => simp
  | installer _ _ _ _ hloading => exact absurd rfl hloading

theorem Holds.of_error (h : Holds s) (hstate : s.state = .error) :
    s.metadata ≠ none ∧ s.tree ≠ none ∧ s.loadedFile ≠ none ∨
      s.metadata = none ∧ s.tree = none ∧ s.loadedFile = none := by
  rw [Holds, hstate] at h
  generalize s.inFlight = slot, s.loadedFile = file, s.metadata = metadata, s.tree = tree at h
  cases h with
  | nothing _ => exact .inr ⟨rfl, rfl, rfl⟩
  | installer _ _ _ _ _ => exact .inl ⟨nofun, nofun, nofun⟩

/-- A file is pending exactly while a session loads. -/
theorem OnStage.pendingFile_eq_none_iff (h : OnStage s) :
    s.pendingFile = none ↔ s.state ≠ .loading := by
  rw [OnStage] at h
  generalize s.state = state, s.inFlight = slot, s.pendingFile = file at h
  cases h with
  | resting hstate | checking hstate => cases state <;> simp_all [SessionState.isLocked]
  | loading file | listing file => simp
  | extracting | aborting => simp

theorem LanguageFits.eq_none_iff (h : LanguageFits s) :
    s.language = none ↔
      s.metadata = none ∨ ∃ metadata, s.metadata = some metadata ∧ metadata.languages = [] := by
  rw [LanguageFits, languages] at h
  generalize s.language = language, s.metadata = metadata at h
  cases language with
  | none =>
      cases metadata with
      | none => simp
      | some metadata => simpa [Fits] using h
  | some i =>
      cases metadata with
      | none => exact absurd h (Nat.not_lt_zero i)
      | some metadata =>
          have hsome : metadata.languages ≠ [] := List.ne_nil_of_length_pos (Nat.zero_lt_of_lt h)
          simpa using hsome

/-- **The installer goes with the state**: after any steps, while the worker lives, an idle session
holds nothing; one that loads has a pending file and no tree, and the metadata exactly while the
list is under way; one that is ready, extracts or aborts has all of its installer; and after an
error all of it is there or nothing.  The language is missing exactly if there is none to choose,
and otherwise it is one of those of the metadata, whether the worker lives or not. -/
theorem installer_run (files : FileStore) (log : Log) (dir : String) (steps : List Step) :
    let s := (new files log dir).run steps
    (s.worker.alive = true →
      (s.state = .idle → s.metadata = none ∧ s.tree = none ∧ s.language = none ∧
        s.loadedFile = none ∧ s.pendingFile = none) ∧
      (s.state = .loading → s.pendingFile ≠ none ∧ s.tree = none ∧ s.loadedFile = none ∧
        (s.metadata ≠ none ↔ s.inFlight = some .list)) ∧
      (s.state = .ready ∨ s.state = .extracting ∨ s.state = .aborting →
        s.metadata ≠ none ∧ s.tree ≠ none ∧ s.loadedFile ≠ none ∧ s.pendingFile = none) ∧
      (s.state = .error → s.pendingFile = none ∧
        (s.metadata ≠ none ∧ s.tree ≠ none ∧ s.loadedFile ≠ none ∨
          s.metadata = none ∧ s.tree = none ∧ s.loadedFile = none))) ∧
      (s.language = none ↔
        s.metadata = none ∨ ∃ metadata, s.metadata = some metadata ∧ metadata.languages = []) ∧
      ∀ i, s.language = some i →
        ∃ metadata, s.metadata = some metadata ∧ i < metadata.languages.length := by
  intro s
  have hfits : LanguageFits s := fits_run files log dir steps
  refine ⟨fun halive => ?_, hfits.eq_none_iff, fun i hi => ?_⟩
  · have h : Furnished s := furnished_run files log dir steps halive
    have hpending := h.stage.pendingFile_eq_none_iff
    refine ⟨fun hidle => ?_, fun hloading => ?_, fun hinstaller => ?_, fun herror => ?_⟩
    · obtain ⟨hfile, hmetadata, htree⟩ := h.holds.of_idle hidle
      exact ⟨hmetadata, htree, hfits.eq_none_iff.mpr (.inl hmetadata), hfile,
        hpending.mpr (by simp [hidle])⟩
    · obtain ⟨hfile, htree, hmetadata⟩ := h.holds.of_loading hloading
      exact ⟨fun hnone => hpending.mp hnone hloading, htree, hfile, hmetadata⟩
    · obtain ⟨file, metadata, tree, hfile, hmetadata, htree⟩ := h.holds.of_installer hinstaller
      refine ⟨by simp [hmetadata], by simp [htree], by simp [hfile], hpending.mpr ?_⟩
      rcases hinstaller with hstate | hstate | hstate <;> simp [hstate]
    · exact ⟨hpending.mpr (by simp [herror]), h.holds.of_error herror⟩
  · rw [LanguageFits, hi, languages] at hfits
    cases hmetadata : s.metadata with
    | none => simp [hmetadata, Fits] at hfits
    | some metadata =>
        rw [hmetadata] at hfits
        exact ⟨metadata, rfl, hfits⟩

/-- An extraction that the engine refuses leaves an error, and the installer is still there. -/
theorem installer_run_refusedExtraction :
    let steps := loadSteps ++
      [.extract, .worker .take, .worker (.reply (.error (.engine "disk full"))), .poll]
    let s := (new emptyFiles (.new .live) "out").run steps
    s.worker.alive = true ∧ s.state = .error ∧ s.pendingFile = none ∧
      s.metadata ≠ none ∧ s.tree ≠ none ∧ s.loadedFile ≠ none := by
  intro steps s
  have halive : s.worker.alive = true := by decide +kernel
  have hstate : s.state = .error := by decide +kernel
  have hloaded : s.loadedFile = some "setup.exe" := by decide +kernel
  obtain ⟨hinstaller, _⟩ := installer_run emptyFiles (.new .live) "out" steps
  obtain ⟨_, _, _, herror⟩ := hinstaller halive
  obtain ⟨hpending, hall | hnothing⟩ := herror hstate
  · exact ⟨halive, hstate, hpending, hall⟩
  · exact nomatch hloaded.symm.trans hnothing.2.2

end InstallerBrowser.Session
