import InstallerBrowser.Proofs.Session.Slot
import InstallerBrowser.Proofs.Storage.Staging

/-!
# InstallerBrowser.Proofs.Session.Refusal

What an operation that is refused leaves behind.

An extraction, a check of the options and the discarding of an installer that end in an error
leave what the session knows about its installer as it was (`Untouched`), and the output that it
holds.  Of these only an extraction gets as far as the files, and it gives up an output that it has
opened (`FailedExtract`).  A load gives up the installer before it sends its call, so a load that a
dead worker refuses has already forgotten it: `untouched_load_iff` says when that can be told.
-/

namespace InstallerBrowser.Session

variable {s : Session} {e : AppError}

/-- A session knows the same about its calls and its installer as another. -/
structure Untouched (s t : Session) : Prop where
  state : t.state = s.state
  inFlight : t.inFlight = s.inFlight
  metadata : t.metadata = s.metadata
  tree : t.tree = s.tree
  language : t.language = s.language
  loadedFile : t.loadedFile = s.loadedFile
  pendingFile : t.pendingFile = s.pendingFile
  progress : t.progress = s.progress

theorem untouched_refl (s : Session) : Untouched s s := ⟨rfl, rfl, rfl, rfl, rfl, rfl, rfl, rfl⟩

/-! ## Operations that give up nothing -/

/-- An extraction sets nothing before its call is sent. -/
theorem untouched_extract (h : s.extract.2 = .error e) : Untouched s s.extract.1 := by
  have hextract := extractResult s
  generalize s.extract = r at hextract h
  cases hextract with
  | busy _ => exact untouched_refl s
  | unready _ _ => exact untouched_refl s
  | unopened _ _ _ => exact ⟨rfl, rfl, rfl, rfl, rfl, rfl, rfl, rfl⟩
  | refused log _ _ _ _ => exact ⟨rfl, rfl, rfl, rfl, rfl, rfl, rfl, rfl⟩
  | sent progress log _ _ _ _ => cases h

theorem checkOptions_fst_of_error {options : Options} (h : (s.checkOptions options).2 = .error e) :
    (s.checkOptions options).1 = s := by
  have hcheck := checkResult s options
  generalize s.checkOptions options = r at hcheck h
  cases hcheck with
  | busy _ => rfl
  | refused _ _ => rfl
  | sent _ _ => cases h

theorem discardInstaller_fst_of_error (h : s.discardInstaller.2 = .error e) :
    s.discardInstaller.1 = s := by
  rcases discardInstaller_cases s with ⟨_, heq⟩ | ⟨_, _, log, heq⟩
  · rw [heq]
  · rw [heq] at h
    cases h

/-- Why an extraction is refused, and what it leaves then. -/
inductive FailedExtract (s : Session) : AppError → Session → Prop
  | busy {kind : CallKind} : s.inFlight = some kind → FailedExtract s (.busy kind) s
  | unready : s.inFlight = none → s.editableTree = none →
      FailedExtract s (.invalidState .extract s.state) s
  /-- The output cannot be opened; directories that were made for it stay. -/
  | unopened {files : FileStore} {e : StorageError} :
      OutputSink.open s.files s.outputPath = (files, .error e) →
      FailedExtract s (.storage e) { s with files }
  /-- The worker is dead when the output is open: nothing is left where it was staged. -/
  | refused {opened files : FileStore} {sink : OutputSink} {worker : Worker} {log : Log} :
      OutputSink.open s.files s.outputPath = (opened, .ok sink) → s.worker.alive = false →
      files.pathExists sink.stagingPath = false →
      FailedExtract s (.protocol .workerStopped) { s with worker, log, files }

theorem failedExtract (h : s.extract.2 = .error e) : FailedExtract s e s.extract.1 := by
  have hextract := extractResult s
  generalize s.extract = r at hextract h
  cases hextract with
  | busy hbusy =>
      cases h
      exact .busy hbusy
  | unready hfree htree =>
      cases h
      exact .unready hfree htree
  | unopened _ _ hopen =>
      cases h
      exact .unopened hopen
  | refused _ _ _ hopen hdead =>
      cases h
      exact .refused hopen hdead (OutputSink.pathExists_abandon hopen)
  | sent _ _ _ _ _ _ => cases h

theorem FailedExtract.output {t : Session} (h : FailedExtract s e t) : t.output = s.output := by
  cases h with
  | busy _ | unready _ _ | unopened _ | refused _ _ _ => rfl

/-- **What fails changes nothing**: an extraction, a check of the options and the discarding of an
installer that end in an error leave the session as it was, with the output it holds.  An extraction
fails because a call is under way, because there is nothing to extract from, because its output
cannot be opened, or because the worker is dead; with the output open by then, nothing is left where
it was staged. -/
theorem untouched_of_error (s : Session) :
    (∀ e, s.extract.2 = .error e → Untouched s s.extract.1 ∧ s.extract.1.output = s.output ∧
        FailedExtract s e s.extract.1) ∧
      (∀ options e, (s.checkOptions options).2 = .error e → (s.checkOptions options).1 = s) ∧
      ∀ e, s.discardInstaller.2 = .error e → s.discardInstaller.1 = s := by
  have hextract : ∀ e, s.extract.2 = .error e → Untouched s s.extract.1 ∧
      s.extract.1.output = s.output ∧ FailedExtract s e s.extract.1 := by
    intro e h
    have hfailed := failedExtract h
    exact ⟨untouched_extract h, hfailed.output, hfailed⟩
  exact ⟨hextract, fun _ _ h => checkOptions_fst_of_error h,
    fun _ h => discardInstaller_fst_of_error h⟩

/-- A dead worker refuses an extraction to a path where a staging file was left behind. -/
theorem untouched_of_error_staleOutput :
    let s := (new emptyFiles (.new .live) "out").run
      (loadSteps ++ [.checkOptions {}, .worker .take, .worker .die, .poll,
        .storage fun files => (files.put ["work", "out"] .dir).put
          ["work", "out", "setup.zip.part"] (.file "stale")])
    s.state = .ready ∧ s.files.pathExists "out/setup.zip.part" = true ∧
      s.extract.2 = .error (.protocol .workerStopped) ∧ Untouched s s.extract.1 ∧
      s.extract.1.files.pathExists "out/setup.zip.part" = false := by
  intro s
  have hstate : s.state = .ready := by decide +kernel
  have hstale : s.files.pathExists "out/setup.zip.part" = true := by decide +kernel
  have hpath : s.outputPath = "out/setup.zip" := by decide +kernel
  have herror : s.extract.2 = .error (.protocol .workerStopped) := by decide +kernel
  obtain ⟨hextract, _⟩ := untouched_of_error s
  obtain ⟨huntouched, _, hfailed⟩ := hextract _ herror
  refine ⟨hstate, hstale, herror, huntouched, ?_⟩
  generalize s.extract.1 = t at hfailed
  cases hfailed with
  | refused hopen _ hgone =>
      rwa [OutputSink.stagingPath, (OutputSink.open_eq_ok hopen).1, hpath] at hgone

/-! ## Loads -/

/-- There is no installer to give up, and no progress to forget. -/
structure Blank (s : Session) : Prop where
  metadata : s.metadata = none
  tree : s.tree = none
  language : s.language = none
  loadedFile : s.loadedFile = none
  progress : s.progress = {}

theorem untouched_clearInstaller_iff : Untouched s s.clearInstaller ↔ Blank s := by
  constructor
  · intro h
    exact ⟨h.metadata.symm, h.tree.symm, h.language.symm, h.loadedFile.symm, h.progress.symm⟩
  · intro h
    exact ⟨rfl, rfl, h.metadata.symm, h.tree.symm, h.language.symm, h.loadedFile.symm, rfl,
      h.progress.symm⟩

/-- Why a load is refused, and what it leaves then. -/
theorem load_error_cases {file : String} {options : Options}
    (h : (s.load file options).2 = .error e) :
    (s.load file options).1 = s ∧
        ((∃ kind, s.inFlight = some kind ∧ e = .busy kind) ∨
          s.inFlight = none ∧ s.state.canLoad = false ∧ e = .invalidState .load s.state) ∨
      (s.load file options).1 = s.clearInstaller ∧ s.inFlight = none ∧ s.state.canLoad = true ∧
        s.worker.alive = false ∧ e = .protocol .workerStopped := by
  have hload := loadResult s file options
  generalize s.load file options = r at hload h
  cases hload with
  | busy hslot =>
      cases h
      exact .inl ⟨rfl, .inl ⟨_, hslot, rfl⟩⟩
  | locked hfree hstate =>
      cases h
      exact .inl ⟨rfl, .inr ⟨hfree, hstate, rfl⟩⟩
  | refused hfree hstate hdead =>
      cases h
      exact .inr ⟨rfl, hfree, hstate, hdead, rfl⟩
  | sent log _ _ _ => cases h

/-- **What a refused load changes**: the state, the slot and the pending file stay in any case.
The rest stays, too, exactly if it was not a dead worker that refused, or if there was no
installer to give up; otherwise the installer is gone. -/
theorem untouched_load_iff (file : String) (options : Options)
    (h : (s.load file options).2 = .error e) :
    let t := (s.load file options).1
    (t.state = s.state ∧ t.inFlight = s.inFlight ∧ t.pendingFile = s.pendingFile) ∧
      (Untouched s t ↔ e ≠ .protocol .workerStopped ∨ Blank s) ∧
      (e = .protocol .workerStopped → Blank t) := by
  intro t
  rcases load_error_cases h with ⟨heq, hcause⟩ | ⟨heq, _, _, _, rfl⟩
  · have he : e ≠ .protocol .workerStopped := by
      rcases hcause with ⟨kind, _, rfl⟩ | ⟨_, _, rfl⟩
      · exact nofun
      · exact nofun
    rw [show t = s from heq]
    exact ⟨⟨rfl, rfl, rfl⟩, ⟨fun _ => .inl he, fun _ => untouched_refl s⟩, fun h => absurd h he⟩
  · rw [show t = s.clearInstaller from heq, untouched_clearInstaller_iff]
    refine ⟨⟨rfl, rfl, rfl⟩, ⟨.inr, ?_⟩, fun _ => ⟨rfl, rfl, rfl, rfl, rfl⟩⟩
    rintro (hne | hblank)
    · exact absurd rfl hne
    · exact hblank

/-- A second load while the first is under way changes nothing. -/
theorem untouched_load_twice :
    let s := (new emptyFiles (.new .live) "out").run (loadSteps.take 1)
    (s.load "other.exe" {}).2 = .error (.busy .load) ∧
      Untouched s (s.load "other.exe" {}).1 := by
  intro s
  have hslot : s.inFlight = some .load := by decide +kernel
  have herror : (s.load "other.exe" {}).2 = .error (.busy .load) := by rw [load_of_busy hslot]
  exact ⟨herror, (untouched_load_iff "other.exe" {} herror).2.1.mpr (.inl nofun)⟩

/-- A worker that dies while it checks the options leaves the session ready; the load that it
refuses then takes the installer away, and the session is still ready. -/
theorem not_untouched_load_workerStopped :
    let s := (new emptyFiles (.new .live) "out").run
      (loadSteps ++ [.checkOptions {}, .worker .take, .worker .die, .poll])
    s.state = .ready ∧ s.tree.isSome = true ∧ s.metadata.isSome = true ∧
      s.loadedFile = some "setup.exe" ∧
      (s.load "setup.exe" {}).2 = .error (.protocol .workerStopped) ∧
      (s.load "setup.exe" {}).1.state = .ready ∧ ¬ Untouched s (s.load "setup.exe" {}).1 := by
  intro s
  have hstate : s.state = .ready := by decide +kernel
  have htree : s.tree.isSome = true := by decide +kernel
  have hmetadata : s.metadata.isSome = true := by decide +kernel
  have hloaded : s.loadedFile = some "setup.exe" := by decide +kernel
  have hfree : s.inFlight = none := by decide +kernel
  have hdead : s.worker.alive = false := by decide +kernel
  have hload := loadResult s "setup.exe" {}
  generalize s.load "setup.exe" {} = r at hload
  cases hload with
  | busy hslot => exact absurd (hfree.symm.trans hslot) nofun
  | locked _ hlocked =>
      rw [hstate] at hlocked
      cases hlocked
  | refused _ _ _ =>
      refine ⟨hstate, htree, hmetadata, hloaded, rfl, hstate, fun h => ?_⟩
      have hblank := untouched_clearInstaller_iff.mp h
      rw [hblank.tree] at htree
      cases htree
  | sent log _ _ halive => exact absurd (hdead.symm.trans halive) nofun

end InstallerBrowser.Session
