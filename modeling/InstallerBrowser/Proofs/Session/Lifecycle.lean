import InstallerBrowser.Proofs.Session.Extraction

/-!
# InstallerBrowser.Proofs.Session.Lifecycle

The life of an output, from the start of an extraction to its end.

`Lifecycle` says what an extraction does to the files, and holds of every extraction that is sent.
That it makes a new file (`Fresh`) depends on the path: nothing is there when it is chosen, but the
directories that are made for it can lead it to a file (`not_fresh_missingDir`).  `lifecycle_run`
puts this together.
-/

namespace InstallerBrowser.Session

open FileStore

variable {s opened : Session} {sink : OutputSink} {files : FileStore}

/-! ## What an extraction does to the files -/

/-- What an extraction does to the files, and what it tells. -/
structure Lifecycle (before : FileStore) (opened : Session) (sink : OutputSink) : Prop where
  /-- The engine is given the staging path, where nothing is. -/
  request : ∃ request, .extract request ∈ opened.worker.calls ∧ request.output = sink.stagingPath
  unstaged : opened.files.pathExists sink.stagingPath = false
  /-- Opening makes at most directories, and removes at most a file that was left behind. -/
  opening : ∀ place, opened.files.get? place = before.get? place ∨
    before.get? place = none ∧ opened.files.get? place = some .dir ∨
    opened.files.resolve sink.stagingPath = .ok place ∧
      (∃ stale, before.get? place = some (.file stale)) ∧ opened.files.get? place = none
  /-- Nothing but a poll or a shutdown ends the extraction. -/
  going : ∀ t step, During sink opened t → step ≠ .poll → step ≠ .shutdown →
    (t.step step).output = some sink
  /-- Up to the end only what is staged changes. -/
  meanwhile : ∀ t, During sink opened t → StagesAt sink.stagingPath opened.files t.files
  /-- Only a poll of notices does not end the extraction, and it tells no end. -/
  unended : ∀ t, During sink opened t → t.poll.1.output = some sink →
    (∀ event ∈ t.worker.poll.2, ∃ notice, event = .notice notice) ∧
      t.poll.2.filter SessionEvent.endsCall = []
  /-- The poll that ends the extraction tells one end. -/
  ended : ∀ t, During sink opened t → t.poll.1.output ≠ some sink →
    t.poll.1.output = none ∧ ∃ event ∈ t.worker.poll.2, ∃ told,
      Ending sink t.files event t.poll.1.files told ∧
        t.poll.2.filter SessionEvent.endsCall = [told]
  /-- A shutdown removes what is staged. -/
  shutdown : ∀ t, During sink opened t →
    t.shutdown.output = none ∧ Cleared sink.stagingPath t.files t.shutdown.files

/-- The final path is new: nothing was at its place before, and nothing is there until the
extraction has completed. -/
structure Fresh (before : FileStore) (opened : Session) (sink : OutputSink) : Prop where
  new : ∀ place, opened.files.resolve sink.finalPath = .ok place → before.get? place = none
  meanwhile : ∀ t, During sink opened t → t.files.pathExists sink.finalPath = false
  ended : ∀ t, During sink opened t → t.poll.1.output ≠ some sink →
    (∀ text, .extracted (some sink.finalPath) text ∉ t.poll.2) →
    t.poll.1.files.pathExists sink.finalPath = false
  shutdown : ∀ t, During sink opened t → t.shutdown.files.pathExists sink.finalPath = false

/-- An extraction that is sent holds an output that was opened for it. -/
theorem held_extract (hslot : Slot s []) (h : s.extract.2 = .ok ()) :
    ∃ sink, Held sink s.extract.1 ∧ sink.finalPath = s.outputPath ∧
      OutputSink.open s.files s.outputPath = (s.extract.1.files, .ok sink) ∧
      ∃ request, .extract request ∈ s.extract.1.worker.calls ∧
        request.output = sink.stagingPath := by
  have hsent := slot_extract hslot
  have hextract := extractResult s
  generalize s.extract = r at hextract h hsent
  cases hextract with
  | busy _ => cases h
  | unready _ _ => cases h
  | unopened _ _ _ => cases h
  | refused log _ _ _ _ => cases h
  | @sent tree files sink progress log hfree htree hopen halive =>
      obtain ⟨hfinal, hdir, hcleared⟩ := OutputSink.open_eq_ok hopen
      refine ⟨sink, ⟨hsent, rfl, rfl, hcleared.stagesAt.isDir hdir⟩, hfinal, hopen,
        s.extractionRequest tree sink, ?_, rfl⟩
      rw [Worker.send_of_alive halive]
      exact List.mem_append_right _ List.mem_cons_self

theorem lifecycle_of_held {before : FileStore} {path : String} (h : Held sink opened)
    (hpath : IsOutputPath sink.finalPath)
    (hopen : OutputSink.open before path = (opened.files, .ok sink))
    (hrequest : ∃ request, .extract request ∈ opened.worker.calls ∧
      request.output = sink.stagingPath) : Lifecycle before opened sink where
  request := hrequest
  unstaged := by
    obtain ⟨_, hdir, hcleared⟩ := OutputSink.open_eq_ok hopen
    exact hcleared.pathExists hdir
  opening := OutputSink.open_get? hopen
  going t _ ht hpoll hshutdown := ((held_during h hpath ht).1.step_of_ne hpoll hshutdown).1
  meanwhile t ht := (held_during h hpath ht).2
  unended t ht hheld := by
    rcases (held_during h hpath ht).1.poll_cases hpath with ⟨hall, _, _, _, htold⟩ | ⟨hnone, _⟩
    · exact ⟨hall, htold⟩
    · exact nomatch hnone.symm.trans hheld
  ended t ht hend := by
    rcases (held_during h hpath ht).1.poll_cases hpath with ⟨_, hheld, _⟩ | hended
    · exact absurd hheld hend
    · exact hended
  shutdown t ht := by
    obtain ⟨hheld, _⟩ := held_during h hpath ht
    obtain ⟨hnone, hfiles⟩ := shutdown_of_output hheld.output
    rw [hfiles]
    exact ⟨hnone, sink.cleared_discard hheld.not_dir⟩

/-- The final path of an extraction is new exactly if nothing is there once it has begun. -/
theorem fresh_iff {before : FileStore} (h : Lifecycle before opened sink) (hheld : Held sink opened)
    (hpath : IsOutputPath sink.finalPath) :
    Fresh before opened sink ↔ opened.files.pathExists sink.finalPath = false := by
  constructor
  · exact fun hfresh => hfresh.meanwhile opened .start
  · intro hfree
    have hmeanwhile : ∀ t, During sink opened t → t.files.pathExists sink.finalPath = false :=
      fun t ht => OutputSink.pathExists_finalPath hpath hheld.not_dir (h.meanwhile t ht) hfree
    have hcleared : ∀ t after, During sink opened t → Cleared sink.stagingPath t.files after →
        after.pathExists sink.finalPath = false := fun t after ht hafter =>
      OutputSink.pathExists_finalPath hpath (held_during hheld hpath ht).1.not_dir hafter.stagesAt
        (hmeanwhile t ht)
    refine ⟨fun place hplace => ?_, hmeanwhile, fun t ht hend huntold => ?_,
      fun t ht => hcleared t _ ht (h.shutdown t ht).2⟩
    · have hnone := pathExists_eq_false_iff.mp hfree place hplace
      rcases h.opening place with heq | ⟨hnone', _⟩ | ⟨hstaging, _⟩
      · exact heq.symm.trans hnone
      · exact hnone'
      · exact absurd hstaging (OutputSink.resolve_stagingPath_ne hpath hplace)
    · obtain ⟨_, event, _, told, hending, htold⟩ := h.ended t ht hend
      have hmem : told ∈ t.poll.2 :=
        (List.mem_filter.mp (htold ▸ List.mem_singleton_self told)).1
      generalize t.poll.1.files = after at hending
      cases hending with
      | committed _ _ => exact absurd hmem (huntold _)
      | empty _ _ => exact hmeanwhile t ht
      | unrenamed _ _ hafter => exact hcleared t _ ht hafter
      | aborted _ hafter => exact hcleared t _ ht hafter
      | undiscarded _ hafter => exact hcleared t _ ht hafter
      | unparsable _ hafter => exact hcleared t _ ht hafter
      | failed hafter => exact hcleared t _ ht hafter
      | stopped hafter => exact hcleared t _ ht hafter

/-! ## Every extraction of every run -/

/-- **The life of an output**: after any steps, an extraction that is sent holds an output at a path
where nothing was, only what is staged for it changes until it ends, and it ends in one of the ways
of `Ending`.  The final path is new exactly if nothing is there once the directories that lead to it
are made; that is so if these were there already, or if the path does not climb in a tree. -/
theorem lifecycle_run (files : FileStore) (log : Log) (dir : String) (steps : List Step) :
    let s := (new files log dir).run steps
    s.extract.2 = .ok () → ∃ sink,
      s.extract.1.output = some sink ∧ s.files.pathExists sink.finalPath = false ∧
      Lifecycle s.files s.extract.1 sink ∧
      (Fresh s.files s.extract.1 sink ↔ s.extract.1.files.pathExists sink.finalPath = false) ∧
      ((∃ place, s.files.resolve sink.finalPath = .ok place) ∨
          s.files.IsTree ∧ ".." ∉ pathNames sink.finalPath →
        s.extract.1.files.pathExists sink.finalPath = false) := by
  intro s hsent
  obtain ⟨sink, hheld, hfinal, hopen, hrequest⟩ :=
    held_extract (slot_run files log dir steps) hsent
  have hpath : IsOutputPath sink.finalPath := by
    rw [hfinal]
    exact isOutputPath_nextOutputPath ..
  have hfree : s.files.pathExists sink.finalPath = false := by
    rw [hfinal]
    exact pathExists_nextOutputPath ..
  have hlife := lifecycle_of_held hheld hpath hopen hrequest
  rw [← hfinal] at hopen
  exact ⟨sink, hheld.output, hfree, hlife, fresh_iff hlife hheld hpath,
    OutputSink.pathExists_open hpath hopen hfree⟩

/-- An extraction into the working directory makes a new file. -/
theorem lifecycle_run_loadSteps :
    let s := (new emptyFiles (.new .live) ".").run loadSteps
    let sink : OutputSink := { finalPath := "./setup.zip" }
    s.extract.2 = .ok () ∧ s.extract.1.output = some sink ∧ Lifecycle s.files s.extract.1 sink ∧
      Fresh s.files s.extract.1 sink := by
  have hrun := lifecycle_run emptyFiles (.new .live) "." loadSteps
  intro s sink
  have hsent : s.extract.2 = .ok () := by decide +kernel
  have houtput : s.extract.1.output = some sink := by decide +kernel
  have hplace : s.files.resolve sink.finalPath = .ok ["work", "setup.zip"] := by decide +kernel
  have hs : (new emptyFiles (.new .live) ".").run loadSteps = s := rfl
  rw [hs] at hrun
  clear_value s
  obtain ⟨held, hheld, _, hlife, hfresh, hplain⟩ := hrun hsent
  cases hheld.symm.trans houtput
  exact ⟨hsent, houtput, hlife, hfresh.mpr (hplain (.inl ⟨_, hplace⟩))⟩

/-! ## An output behind a directory that is not there -/

/-- What a scripted engine does to the files while it answers an extraction is staging. -/
theorem stagesAt_writeOutput (r : Reaction) {request : ExtractionRequest}
    (hrequest : request.output = sink.stagingPath) (hdir : files.isDir sink.stagingPath = false) :
    StagesAt sink.stagingPath files (ScriptedEngine.writeOutput r (.extract request) files) := by
  unfold ScriptedEngine.writeOutput
  cases r.output with
  | none => exact stagesAt_refl hdir
  | some text =>
      simp only [hrequest]
      cases hwrite : files.write sink.stagingPath text with
      | error e => exact stagesAt_refl hdir
      | ok after => exact stagesAt_write hwrite

/-- A path through a directory that is missing, and up again, looks free.  Opening the output makes
the directory, and the path then leads to a file that was there before: it is overwritten. -/
theorem not_fresh_missingDir :
    let place := ["work", "setup.zip"]
    let s := (new (emptyFiles.put place (.file "old")) (.new .live) "d/..").run loadSteps
    let sink : OutputSink := { finalPath := "d/../setup.zip" }
    let request : ExtractionRequest :=
      { (default : ExtractionRequest) with output := sink.stagingPath }
    let write := ScriptedEngine.writeOutput { output := some "new" } (.extract request)
    let reply := "\x7b\"status\":\"done\"\x7d"
    let t := ((s.extract.1.step (.worker .take)).step (.storage write)).step
      (.worker (.reply (.ok reply)))
    s.extract.2 = .ok () ∧ s.extract.1.output = some sink ∧ During sink s.extract.1 t ∧
      s.files.get? place = some (.file "old") ∧ t.files.get? place = some (.file "old") ∧
      t.poll.1.output = none ∧ t.poll.1.files.get? place = some (.file "new") ∧
      ¬ Fresh s.files s.extract.1 sink := by
  intro place s sink request write reply t
  have hsent : s.extract.2 = .ok () := by decide +kernel
  have houtput : s.extract.1.output = some sink := by decide +kernel
  have hold : s.files.get? place = some (.file "old") := by decide +kernel
  have hdir : s.extract.1.files.isDir sink.stagingPath = false := by decide +kernel
  have hplace : s.extract.1.files.resolve sink.finalPath = .ok place := by decide +kernel
  have hkept : t.files.get? place = some (.file "old") := by decide +kernel
  have hended : t.poll.1.output = none := by decide +kernel
  have hnew : t.poll.1.files.get? place = some (.file "new") := by decide +kernel
  have hduring : During sink s.extract.1 t := by
    clear_value s
    refine .step _ (.step (.storage write) (.step _ .start nofun houtput) ?_ houtput) nofun houtput
    rintro _ ⟨⟩
    exact stagesAt_writeOutput _ rfl hdir
  exact ⟨hsent, houtput, hduring, hold, hkept, hended, hnew, fun hfresh =>
    nomatch hold.symm.trans (hfresh.new place hplace)⟩

end InstallerBrowser.Session
