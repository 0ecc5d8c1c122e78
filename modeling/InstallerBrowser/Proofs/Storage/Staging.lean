import InstallerBrowser.Proofs.Storage.Directories
import InstallerBrowser.Proofs.Storage.Names

/-!
# InstallerBrowser.Proofs.Storage.Staging

Staging an output.

An output is written beside its final path, so the two places lie in one directory
(`exists_places`), and whatever is staged there leads no path elsewhere (`StagesAt`).  Opening,
removing and committing are told by what they do to the places: `open_eq_ok`, `cleared_abandon`,
`cleared_discard` and `commit_cases`.
-/

namespace InstallerBrowser

open FileStore

variable {a b c store : FileStore} {place : Place} {path : String} {sink : OutputSink}

namespace FileStore

/-! ## Changes at one path -/

/-- A store differs from another at most where a path leads, and holds no directory there. -/
structure StagesAt (path : String) (a b : FileStore) : Prop where
  workingDir : b.workingDir = a.workingDir
  elsewhere : ∀ place, a.resolve path ≠ .ok place → b.get? place = a.get? place
  not_dir : ∀ place, a.resolve path = .ok place → b.get? place ≠ some .dir

/-- A store is another without what was where a path leads. -/
structure Cleared (path : String) (a b : FileStore) : Prop where
  workingDir : b.workingDir = a.workingDir
  elsewhere : ∀ place, a.resolve path ≠ .ok place → b.get? place = a.get? place
  gone : ∀ place, a.resolve path = .ok place → b.get? place = none

theorem Cleared.stagesAt (h : Cleared path a b) : StagesAt path a b where
  workingDir := h.workingDir
  elsewhere := h.elsewhere
  not_dir place hplace hdir := nomatch (h.gone place hplace).symm.trans hdir

theorem stagesAt_refl (h : a.isDir path = false) : StagesAt path a a where
  workingDir := rfl
  elsewhere _ _ := rfl
  not_dir := isDir_eq_false_iff.mp h

/-- What is staged is no directory, so every path leads on as before. -/
theorem StagesAt.keepsDirs (h : StagesAt path a b) (hdir : a.isDir path = false) :
    KeepsDirs a b where
  workingDir := h.workingDir
  dir place hplace := by
    have hne : a.resolve path ≠ .ok place := fun heq =>
      isDir_eq_false_iff.mp hdir place heq hplace
    rw [h.elsewhere place hne]
    exact hplace

theorem StagesAt.keepsDirs_symm (h : StagesAt path a b) : KeepsDirs b a where
  workingDir := h.workingDir.symm
  dir place hplace := by
    have hne : a.resolve path ≠ .ok place := fun heq => h.not_dir place heq hplace
    rw [← h.elsewhere place hne]
    exact hplace

theorem StagesAt.resolve_iff (h : StagesAt path a b) (hdir : a.isDir path = false)
    (other : String) : b.resolve other = .ok place ↔ a.resolve other = .ok place :=
  ⟨h.keepsDirs_symm.resolve, (h.keepsDirs hdir).resolve⟩

theorem StagesAt.isDir (h : StagesAt path a b) (hdir : a.isDir path = false) :
    b.isDir path = false :=
  isDir_eq_false_iff.mpr fun place hplace => h.not_dir place ((h.resolve_iff hdir path).mp hplace)

theorem StagesAt.trans (h : StagesAt path a b) (hdir : a.isDir path = false)
    (h' : StagesAt path b c) : StagesAt path a c where
  workingDir := h'.workingDir.trans h.workingDir
  elsewhere place hplace := by
    have hne : b.resolve path ≠ .ok place := mt (h.resolve_iff hdir path).mp hplace
    rw [h'.elsewhere place hne, h.elsewhere place hplace]
  not_dir place hplace := h'.not_dir place ((h.resolve_iff hdir path).mpr hplace)

/-- Where something is removed nothing is left. -/
theorem Cleared.pathExists (h : Cleared path a b) (hdir : a.isDir path = false) :
    b.pathExists path = false :=
  pathExists_eq_false_iff.mpr fun place hplace =>
    h.gone place ((h.stagesAt.resolve_iff hdir path).mp hplace)

theorem cleared_of_pathExists (h : a.pathExists path = false) : Cleared path a a where
  workingDir := rfl
  elsewhere _ _ := rfl
  gone := pathExists_eq_false_iff.mp h

theorem stagesAt_put {content : String} (h : a.resolve path = .ok place) (hroot : place ≠ []) :
    StagesAt path a (a.put place (.file content)) where
  workingDir := rfl
  elsewhere other hother := by
    have hne : other ≠ place := by
      rintro rfl
      exact hother h
    exact get?_put_of_ne a (.file content) hne
  not_dir other hother := by
    rw [h] at hother
    cases hother
    rw [get?_put_self a place _ hroot]
    exact nofun

/-- The root is a directory. -/
theorem ne_root (h : a.get? place ≠ some .dir) : place ≠ [] := by
  rintro rfl
  exact h rfl

/-- What is written is a file at the place where the path leads, and no directory was there. -/
theorem write_eq_ok {content : String} (h : a.write path content = .ok b) :
    ∃ place, a.resolve path = .ok place ∧ a.get? place ≠ some .dir ∧
      b = a.put place (.file content) := by
  rw [write] at h
  cases hplace : a.resolveNew path with
  | error e =>
      rw [hplace] at h
      cases h
  | ok place =>
      simp only [hplace, bind, Except.bind] at h
      cases hasks : asksForDir path with
      | true =>
          -- A path that asks for a directory is never written to.
          rw [hasks] at h
          cases hentry : a.get? place with
          | none =>
              simp only [hentry] at h
              cases hparent : a.checkParent place with
              | error e =>
                  rw [hparent] at h
                  cases h
              | ok _ =>
                  rw [hparent] at h
                  cases h
          | some entry =>
              rw [hentry] at h
              cases entry <;> cases h
      | false =>
          have hresolve : a.resolve path = .ok place := by
            rwa [resolveNew, hasks, if_neg Bool.false_ne_true] at hplace
          rw [hasks] at h
          refine ⟨place, hresolve, ?_⟩
          cases hentry : a.get? place with
          | none =>
              simp only [hentry] at h
              cases hparent : a.checkParent place with
              | error e =>
                  rw [hparent] at h
                  cases h
              | ok _ =>
                  rw [hparent] at h
                  cases h
                  exact ⟨by simp, rfl⟩
          | some entry =>
              rw [hentry] at h
              cases entry with
              | dir => cases h
              | file old =>
                  cases h
                  exact ⟨by simp, rfl⟩

/-- Writing a file stages it. -/
theorem stagesAt_write {content : String} (h : a.write path content = .ok b) :
    StagesAt path a b := by
  obtain ⟨place, hplace, hdir, rfl⟩ := write_eq_ok h
  exact stagesAt_put hplace (ne_root hdir)

/-- What was written is where the path leads then, and all else is as it was. -/
theorem get?_write {content : String} (h : a.write path content = .ok b) :
    ∃ place, b.resolve path = .ok place ∧ b.get? place = some (.file content) ∧
      ∀ other, other ≠ place → b.get? other = a.get? other := by
  obtain ⟨place, hplace, hdir, rfl⟩ := write_eq_ok h
  have hroot := ne_root hdir
  have hfile : a.isDir path = false := by
    refine isDir_eq_false_iff.mpr fun other hother => ?_
    cases hplace.symm.trans hother
    exact hdir
  have hstages : StagesAt path a (a.put place (.file content)) := stagesAt_put hplace hroot
  exact ⟨place, (hstages.resolve_iff hfile path).mpr hplace, get?_put_self a place _ hroot,
    fun other hother => get?_put_of_ne a _ hother⟩

/-! ## Removing a file -/

theorem cleared_erase (h : a.resolve path = .ok place) (hroot : place ≠ []) :
    Cleared path a (a.erase place) where
  workingDir := rfl
  elsewhere other hother := by
    have hne : other ≠ place := by
      rintro rfl
      exact hother h
    exact get?_erase_of_ne a hne
  gone other hother := by
    rw [h] at hother
    cases hother
    exact get?_erase_self a hroot

/-- A file is removed; that fails where nothing is. -/
theorem removeFile_of_not_isDir (h : a.isDir path = false) :
    ∃ b, Cleared path a b ∧
      (a.removeFile path = .ok b ∨ b = a ∧ ∃ e, a.removeFile path = .error e) := by
  rw [isDir_eq_false_iff] at h
  rw [removeFile]
  cases hplace : a.resolve path with
  | error e =>
      refine ⟨a, cleared_of_pathExists (pathExists_eq_false_iff.mpr ?_), .inr ⟨rfl, e, rfl⟩⟩
      intro place hplace'
      rw [hplace] at hplace'
      cases hplace'
  | ok place =>
      simp only [bind, Except.bind]
      cases hentry : a.get? place with
      | none =>
          refine ⟨a, cleared_of_pathExists (pathExists_eq_false_iff.mpr ?_), .inr ⟨rfl, _, rfl⟩⟩
          intro other hother
          rw [hplace] at hother
          cases hother
          exact hentry
      | some entry =>
          cases entry with
          | dir => exact absurd hentry (h place hplace)
          | file old => exact ⟨_, cleared_erase hplace (ne_root (h place hplace)), .inl rfl⟩

theorem removeFile_of_isDir (h : a.isDir path = true) :
    a.removeFile path = .error .isADirectory := by
  rw [isDir, lookup] at h
  rw [removeFile]
  cases hplace : a.resolve path with
  | error e =>
      rw [hplace] at h
      cases h
  | ok place =>
      simp only [hplace, bind, Except.bind] at h ⊢
      cases hentry : a.get? place with
      | none =>
          rw [hentry] at h
          cases h
      | some entry =>
          cases entry with
          | dir => rfl
          | file old =>
              rw [hentry] at h
              cases h

end FileStore

namespace OutputSink

/-! ## Removing an output -/

theorem removeIfPresent_of_not_isDir (h : a.isDir path = false) :
    ∃ b, Cleared path a b ∧
      (removeIfPresent a path = .ok b ∨ b = a ∧ ∃ e, removeIfPresent a path = .error e) := by
  rw [removeIfPresent]
  obtain ⟨b, hb, heq | ⟨rfl, e, heq⟩⟩ := removeFile_of_not_isDir h
  · rw [heq]
    exact ⟨b, hb, .inl rfl⟩
  · rw [heq]
    cases e with
    | notFound => exact ⟨b, hb, .inl rfl⟩
    | _ => exact ⟨b, hb, .inr ⟨rfl, _, rfl⟩⟩

theorem cleared_abandon (sink : OutputSink) (h : store.isDir sink.stagingPath = false) :
    Cleared sink.stagingPath store (sink.abandon store) := by
  rw [abandon]
  obtain ⟨b, hb, heq | ⟨rfl, e, heq⟩⟩ := removeFile_of_not_isDir h
  · rw [heq]
    exact hb
  · rw [heq]
    exact hb

theorem cleared_discard (sink : OutputSink) (h : store.isDir sink.stagingPath = false) :
    Cleared sink.stagingPath store (sink.discard store).1 := by
  rw [discard]
  obtain ⟨b, hb, heq | ⟨rfl, e, heq⟩⟩ := removeIfPresent_of_not_isDir h
  · rw [heq]
    exact hb
  · rw [heq]
    exact hb

/-! ## Two places side by side -/

/-- The places of an output, in one directory. -/
structure Places (store : FileStore) (sink : OutputSink) (final staging : Place) : Prop where
  final_eq : store.resolve sink.finalPath = .ok final
  staging_eq : store.resolve sink.stagingPath = .ok staging
  dir : store.get? final.dropLast = some .dir
  root : final ≠ []

/-- The names of the two paths differ in the last one, by what is put behind it. -/
theorem exists_pathNames (hpath : IsOutputPath sink.finalPath) : ∃ names last,
    pathNames sink.finalPath = names ++ [last ++ ".zip"] ∧
      pathNames sink.stagingPath = names ++ [last ++ ".zip" ++ ".part"] := by
  obtain ⟨base, hbase⟩ := hpath
  obtain ⟨names, last, hnames⟩ := exists_pathNames_append base
  refine ⟨names, last, ?_, ?_⟩
  · rw [hbase]
    exact hnames ".zip" (by decide)
  · rw [stagingPath, hbase, stagingSuffix, String.append_assoc, String.append_assoc]
    exact hnames (".zip" ++ ".part") (by decide)

theorem isProper_zip (last : String) : IsProper (last ++ ".zip") := by
  refine isProper_of_length ?_
  rw [String.length_append]
  exact Nat.lt_add_left _ (by decide)

theorem isProper_part (last : String) : IsProper (last ++ ".zip" ++ ".part") := by
  refine isProper_of_length ?_
  rw [String.length_append]
  exact Nat.lt_add_left _ (by decide)

/-- The two paths never lead to the same place. -/
theorem resolve_stagingPath_ne (hpath : IsOutputPath sink.finalPath)
    (h : store.resolve sink.finalPath = .ok place) :
    store.resolve sink.stagingPath ≠ .ok place := by
  intro hstaging
  obtain ⟨names, last, hfinal, hpart⟩ := exists_pathNames hpath
  obtain ⟨_, _, dir, _, _, rfl⟩ := (resolve_eq_ok hfinal (isProper_zip last)).mp h
  obtain ⟨_, _, dir', _, _, heq⟩ := (resolve_eq_ok hpart (isProper_part last)).mp hstaging
  have hlength := congrArg String.length (List.singleton_inj.mp (List.append_inj' heq rfl).2)
  simp [String.length_append] at hlength

/-- Where the staging path leads somewhere, the final path leads beside it. -/
theorem exists_places {staging : Place} (hpath : IsOutputPath sink.finalPath)
    (h : store.resolve sink.stagingPath = .ok staging) :
    ∃ final, Places store sink final staging := by
  obtain ⟨names, last, hfinal, hpart⟩ := exists_pathNames hpath
  obtain ⟨⟨hne, hnul⟩, hshort, dir, hdirs, hdir, rfl⟩ :=
    (resolve_eq_ok hpart (isProper_part last)).mp h
  have hstart : store.startOf sink.stagingPath = store.startOf sink.finalPath := by
    rw [startOf, startOf, stagingPath, isAbsolute_append (by decide)]
  refine ⟨dir ++ [last ++ ".zip"], ?_, h, ?_, ?_⟩
  · refine (resolve_eq_ok hfinal (isProper_zip last)).mpr ⟨⟨?_, ?_⟩, ?_, dir, ?_, hdir, rfl⟩
    · obtain ⟨base, hbase⟩ := hpath
      intro hempty
      have hlength := congrArg String.length (hbase.symm.trans hempty)
      simp [String.length_append] at hlength
    · rw [stagingPath, String.toList_append, List.mem_append, not_or] at hnul
      exact hnul.1
    · rw [String.utf8ByteSize_append] at hshort
      exact Nat.le_trans (Nat.le_add_right _ _) hshort
    · rw [← hstart]
      exact hdirs
  · rw [List.dropLast_concat]
    exact hdir
  · exact List.append_ne_nil_of_right_ne_nil dir (List.cons_ne_nil _ _)

/-! ## Committing -/

theorem asksForDir_of_isOutputPath (hpath : IsOutputPath path) : asksForDir path = false := by
  obtain ⟨base, rfl⟩ := hpath
  have hzip : ".zip".toList = ['.', 'z', 'i', 'p'] := by decide
  rw [asksForDir, String.toList_append, hzip, List.getLast?_append]
  rfl

/-- Where something is, and no directory, there is a file. -/
theorem exists_file (hdir : store.isDir path = false) (hexists : store.pathExists path = true) :
    ∃ place content, store.resolve path = .ok place ∧ store.get? place = some (.file content) := by
  obtain ⟨place, entry, hplace, hentry⟩ := pathExists_iff.mp hexists
  cases entry with
  | dir => exact absurd hentry (isDir_eq_false_iff.mp hdir place hplace)
  | file content => exact ⟨place, content, hplace, hentry⟩

theorem rename_of_file {source target content : String} {src dst : Place}
    (hsrc : store.resolve source = .ok src) (hcontent : store.get? src = some (.file content))
    (hfile : asksForDir target = false) (hdst : store.resolve target = .ok dst)
    (hparent : store.get? dst.dropLast = some .dir) :
    store.rename source target =
      if store.get? dst = some .dir then .error .isADirectory
      else .ok ((store.erase src).put dst (.file content)) := by
  rw [rename, resolveNew, hfile, if_neg Bool.false_ne_true, hsrc, hdst]
  simp only [bind, Except.bind, hcontent, checkParent, hparent]
  cases store.get? dst with
  | none => rfl
  | some entry => cases entry <;> rfl

/-- A store is another whose staged file has got its final name. -/
structure Committed (sink : OutputSink) (content : String) (a b : FileStore) : Prop where
  staged : a.read sink.stagingPath = .ok content
  written : b.read sink.finalPath = .ok content
  gone : b.pathExists sink.stagingPath = false
  elsewhere : ∀ place, a.resolve sink.stagingPath ≠ .ok place →
    a.resolve sink.finalPath ≠ .ok place → b.get? place = a.get? place

theorem committed_put {final staging : Place} {content : String}
    (hpath : IsOutputPath sink.finalPath) (hplaces : Places store sink final staging)
    (hcontent : store.get? staging = some (.file content)) (hfinal : store.get? final ≠ some .dir) :
    Committed sink content store ((store.erase staging).put final (.file content)) := by
  have hne : staging ≠ final := by
    rintro rfl
    exact resolve_stagingPath_ne hpath hplaces.final_eq hplaces.staging_eq
  have hroot : staging ≠ [] := by
    rintro rfl
    cases hcontent
  have helse : ∀ place, place ≠ staging → place ≠ final →
      ((store.erase staging).put final (.file content)).get? place = store.get? place := by
    intro place hstaging hfinal
    rw [get?_put_of_ne _ _ hfinal, get?_erase_of_ne _ hstaging]
  have hwritten := get?_put_self (store.erase staging) final (.file content) hplaces.root
  have hgone : ((store.erase staging).put final (.file content)).get? staging = none := by
    rw [get?_put_of_ne _ _ hne, get?_erase_self _ hroot]
  -- Neither place holds a directory before or after, so all paths lead on as before.
  have hkeeps : KeepsDirs store ((store.erase staging).put final (.file content)) := by
    refine ⟨rfl, fun place hdir => ?_⟩
    rw [helse place ?_ ?_]
    · exact hdir
    · rintro rfl
      exact nomatch hcontent.symm.trans hdir
    · rintro rfl
      exact hfinal hdir
  have hkeeps' : KeepsDirs ((store.erase staging).put final (.file content)) store := by
    refine ⟨rfl, fun place hdir => ?_⟩
    rw [← helse place ?_ ?_]
    · exact hdir
    · rintro rfl
      exact nomatch hgone.symm.trans hdir
    · rintro rfl
      exact nomatch hwritten.symm.trans hdir
  refine ⟨read_eq_ok_iff.mpr ⟨staging, hplaces.staging_eq, hcontent⟩,
    read_eq_ok_iff.mpr ⟨final, hkeeps.resolve hplaces.final_eq, hwritten⟩,
    pathExists_eq_false_iff.mpr fun place hplace => ?_, fun place hstaging hfinal => ?_⟩
  · have hsame := hplaces.staging_eq.symm.trans (hkeeps'.resolve hplace)
    cases hsame
    exact hgone
  · exact helse place (fun heq => hstaging (heq ▸ hplaces.staging_eq))
      (fun heq => hfinal (heq ▸ hplaces.final_eq))

/-- A commit does nothing if nothing is staged.  What is staged gets the final name, unless a
directory has that name; then it is removed. -/
theorem commit_cases (hpath : IsOutputPath sink.finalPath)
    (hdir : store.isDir sink.stagingPath = false) :
    store.pathExists sink.stagingPath = false ∧ sink.commit store = (store, .ok none) ∨
      (∃ content b, Committed sink content store b ∧
          sink.commit store = (b, .ok (some sink.finalPath))) ∨
        ∃ b, Cleared sink.stagingPath store b ∧ sink.commit store = (b, .error .isADirectory) ∧
          store.isDir sink.finalPath = true := by
  cases hexists : store.pathExists sink.stagingPath with
  | false =>
      rw [commit, hexists]
      exact .inl ⟨rfl, rfl⟩
  | true =>
      obtain ⟨staging, content, hstaging, hcontent⟩ := exists_file hdir hexists
      obtain ⟨final, hplaces⟩ := exists_places hpath hstaging
      rw [commit, hexists, if_pos rfl, rename_of_file hstaging hcontent
        (asksForDir_of_isOutputPath hpath) hplaces.final_eq hplaces.dir]
      by_cases hfinal : store.get? final = some .dir
      · rw [if_pos hfinal]
        refine .inr (.inr ⟨_, cleared_abandon sink hdir, rfl, ?_⟩)
        rw [← Bool.not_eq_false, isDir_eq_false_iff]
        exact fun h => h final hplaces.final_eq hfinal
      · rw [if_neg hfinal]
        exact .inr (.inl ⟨content, _, committed_put hpath hplaces hcontent hfinal, rfl⟩)

/-! ## Opening -/

/-- Opening makes directories, and removes what was left at the staging path: a file. -/
theorem open_eq_ok (h : OutputSink.open a path = (b, .ok sink)) :
    sink.finalPath = path ∧ (growParent a path).1.isDir sink.stagingPath = false ∧
      Cleared sink.stagingPath (growParent a path).1 b := by
  rw [OutputSink.open] at h
  generalize growParent a path = r at h
  obtain ⟨grown, e | ⟨⟩⟩ := r
  · cases h
  · simp only at h
    cases hdir : grown.isDir (stagingPath { finalPath := path }) with
    | true =>
        rw [removeIfPresent, removeFile_of_isDir hdir] at h
        cases h
    | false =>
        obtain ⟨c, hcleared, heq | ⟨rfl, e, heq⟩⟩ := removeIfPresent_of_not_isDir hdir
        · rw [heq] at h
          cases h
          exact ⟨rfl, hdir, hcleared⟩
        · rw [heq] at h
          cases h

/-- What opening makes of a place: at most a new directory, and nothing of a file left behind. -/
theorem open_get? (h : OutputSink.open a path = (b, .ok sink)) (place : Place) :
    b.get? place = a.get? place ∨ a.get? place = none ∧ b.get? place = some .dir ∨
      b.resolve sink.stagingPath = .ok place ∧
        (∃ stale, a.get? place = some (.file stale)) ∧ b.get? place = none := by
  obtain ⟨_, hdir, hcleared⟩ := open_eq_ok h
  have hgrows := grows_growParent a path
  generalize (growParent a path).1 = grown at hdir hcleared hgrows
  by_cases hplace : grown.resolve sink.stagingPath = .ok place
  · have hgone := hcleared.gone place hplace
    have hnotDir := isDir_eq_false_iff.mp hdir place hplace
    rcases hgrows.get? place with heq | ⟨_, hmade, _⟩
    · rw [heq] at hnotDir
      cases hentry : a.get? place with
      | none => exact .inl hgone
      | some entry =>
          cases entry with
          | dir => exact absurd hentry hnotDir
          | file stale =>
              have hstaging := (hcleared.stagesAt.resolve_iff hdir _).mpr hplace
              exact .inr (.inr ⟨hstaging, ⟨stale, rfl⟩, hgone⟩)
    · exact absurd hmade hnotDir
  · rw [hcleared.elsewhere place hplace]
    rcases hgrows.get? place with heq | ⟨hnone, hmade, _⟩
    · exact .inl heq
    · exact .inr (.inl ⟨hnone, hmade⟩)

/-- What is staged is not at the final path. -/
theorem pathExists_finalPath (hpath : IsOutputPath sink.finalPath)
    (hdir : a.isDir sink.stagingPath = false) (h : StagesAt sink.stagingPath a b)
    (hfree : a.pathExists sink.finalPath = false) : b.pathExists sink.finalPath = false := by
  refine pathExists_eq_false_iff.mpr fun place hplace => ?_
  have hbefore := (h.resolve_iff hdir sink.finalPath).mp hplace
  rw [h.elsewhere place (resolve_stagingPath_ne hpath hbefore)]
  exact pathExists_eq_false_iff.mp hfree place hbefore

/-- Behind its opening an output's path is free if it was, and if its directories were there or the
path does not climb in a tree. -/
theorem pathExists_open (hpath : IsOutputPath path) (h : OutputSink.open a path = (b, .ok sink))
    (hfree : a.pathExists path = false)
    (hplain : (∃ place, a.resolve path = .ok place) ∨ a.IsTree ∧ ".." ∉ pathNames path) :
    b.pathExists path = false := by
  obtain ⟨rfl, hdir, hcleared⟩ := open_eq_ok h
  obtain ⟨names, last, hnames, _⟩ := exists_pathNames hpath
  exact pathExists_finalPath hpath hdir hcleared.stagesAt
    (pathExists_growParent hnames (isProper_zip last) hfree hplain)

/-- An output that is given up again leaves nothing where it was staged, not even what opening found
there. -/
theorem pathExists_abandon (h : OutputSink.open a path = (b, .ok sink)) :
    (sink.abandon b).pathExists sink.stagingPath = false := by
  obtain ⟨_, hdir, hcleared⟩ := open_eq_ok h
  have hfile : b.isDir sink.stagingPath = false := hcleared.stagesAt.isDir hdir
  exact (cleared_abandon sink hfile).pathExists hfile

end OutputSink

end InstallerBrowser
