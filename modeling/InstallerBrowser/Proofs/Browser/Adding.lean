import InstallerBrowser.Proofs.Browser.Effects

/-!
# InstallerBrowser.Proofs.Browser.Adding

Adding files, some of which cannot be added.

What comes of the paths is `Adds`: files behind those that were there, lines in the log, a dialog for
the first failure, and nothing else.
-/

namespace InstallerBrowser.Browser

/-- What adding the files at some paths comes to. -/
structure Adds (b : Browser) (paths : List String) (files : List QueuedFile) (c : Browser) :
    Prop where
  map_path : files.map (·.path) = paths.filter b.session.files.leadsToFile
  found : ∀ f ∈ files, b.session.files.fileAt? f.path = some f
  map_refused : (b.session.files.refusals paths).map (·.1) =
    paths.filter fun path => !b.session.files.leadsToFile path
  appended : c.queue.files = b.queue.files ++ files
  unchanged : files = [] → c.queue = b.queue ∧ c.queueScroll = b.queueScroll
  selected : files ≠ [] → c.queue.selected = c.queue.files.findIdx? QueuedFile.isInstaller ∧
    c.queueScroll = min b.queueScroll (c.queue.size - 1)
  log : c.log = b.log.withLines (b.linesOfAdding paths files)
  dialog : c.dialog = ((paths.findSome? b.session.files.refusal?).map Dialog.ofError).or b.dialog
  rest : c = { b with
    session := { b.session with log := c.log }
    queue := c.queue
    queueScroll := c.queueScroll
    dialog := c.dialog }

theorem adds_of_unlocked {b : Browser} (hlocked : b.session.state.isLocked = false)
    (paths : List String) :
    Adds b paths (paths.filterMap b.session.files.fileAt?) (b.addFiles paths) := by
  rw [addFiles_of_unlocked hlocked]
  refine ⟨FileStore.map_path_filterMap_fileAt? _ _, fun f hf => ?_, FileStore.map_fst_refusals _ _,
    ?_, fun hnone => ?_, fun hsome => ?_, rfl, rfl, rfl⟩
  · obtain ⟨path, _, hpath⟩ := List.mem_filterMap.mp hf
    exact FileStore.fileAt?_path hpath
  · by_cases hnone : paths.filterMap b.session.files.fileAt? = []
    · rw [hnone, List.append_nil]
      rfl
    · simp only [List.isEmpty_iff, if_neg hnone]
      rfl
  · rw [hnone]
    exact ⟨rfl, rfl⟩
  · simp only [List.isEmpty_iff, if_neg hsome]
    exact ⟨rfl, trivial⟩

/-- **Adding files of which some fail**: a queue that is not locked gets exactly the paths behind
which there is a file, in their order and as often as they are given, behind the files that it had;
each other path has its line in the log, in order, and the first of them is shown; without a file to
add the queue and its selection stay, and without a failure the dialog does.  A locked queue stays as
it is. -/
theorem adds_addFiles (b : Browser) (paths : List String) :
    (b.session.state.isLocked = true → b.addFiles paths =
        { b with toast := some ("Queue is locked while " ++ b.session.state.label) }) ∧
      (b.session.state.isLocked = false → ∃ files, Adds b paths files (b.addFiles paths)) := by
  refine ⟨fun hlocked => ?_, fun hlocked => ⟨_, adds_of_unlocked hlocked paths⟩⟩
  rw [addFiles, if_pos hlocked]
  rfl

/-- Two files, and a directory. -/
def docsFiles : FileStore :=
  (setupFiles.put ["work", "notes.txt"] (.file "")).put ["work", "docs"] .dir

/-- A path that is given twice is added twice, between and behind two that fail. -/
theorem adds_addFiles_docsFiles :
    let b := (new {} atHome "out" docsFiles).run [.addFiles ["notes.txt"]]
    let c := b.addFiles ["docs", "setup.exe", "lost.exe", "setup.exe"]
    let locked := ((new {} atHome "out" docsFiles).run (setupEvents ++ [.action .extract]))
    b.session.state.isLocked = false ∧
      c.queue.files.map (·.path) = ["notes.txt", "setup.exe", "setup.exe"] ∧
      c.queue.selected = some 1 ∧
      c.dialog = some (.error "File Error" "IO error: docs is a directory") ∧
      locked.session.state.isLocked = true ∧ (locked.addFiles ["docs"]).queue = locked.queue ∧
      (locked.addFiles ["docs"]).dialog = locked.dialog := by
  intro b c locked
  have hunlocked : b.session.state.isLocked = false := by decide +kernel
  have hlocked : locked.session.state.isLocked = true := by decide +kernel
  obtain ⟨files, hadds⟩ := (adds_addFiles b ["docs", "setup.exe", "lost.exe", "setup.exe"]).2 hunlocked
  have hkept := (adds_addFiles locked ["docs"]).1 hlocked
  have hpaths : files.map (·.path) = ["setup.exe", "setup.exe"] :=
    hadds.map_path.trans (by decide +kernel)
  refine ⟨hunlocked, ?_, ?_, ?_, hlocked, by rw [hkept], by rw [hkept]⟩
  · rw [hadds.appended, List.map_append, hpaths]
    decide +kernel
  · decide +kernel
  · rw [hadds.dialog]
    decide +kernel

end InstallerBrowser.Browser
