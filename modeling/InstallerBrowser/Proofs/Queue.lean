import InstallerBrowser.Proofs.Storage.Extension
import InstallerBrowser.Queue

/-!
# InstallerBrowser.Proofs.Queue

What is selected in a queue.

Each operation is told by what it comes to: adding and removing leave the first installer selected
(`SelectsFirst`), removing takes out the file with a number and no other (`Removes`), and a move
goes to a file next to the one that was selected (`Moves`).  From these every operation keeps the
selection among the files (`InRange`), and so does a sequence of them.
-/

namespace InstallerBrowser

/-! ## Installers -/

namespace QueuedFile

variable {f : QueuedFile}

/-- The name of a file ends in `.exe`, in capitals or not, with something in front of it. -/
def EndsInExe (f : QueuedFile) : Prop :=
  ∃ stem ext, stem ≠ [] ∧ f.name.toList = stem ++ '.' :: ext ∧
    ext.map Char.toLower = ['e', 'x', 'e']

/-- The name of a file is a last name itself, unless the path has none. -/
theorem fileName?_name (f : QueuedFile) :
    Path.fileName? f.name = none ∨ Path.fileName? f.name = some f.name := by
  rw [name]
  cases hname : Path.fileName? f.path with
  | none => exact .inl hname
  | some name => exact .inr (Path.fileName?_of_fileName? hname)

theorem isInstaller_eq_true_iff :
    f.isInstaller = true ↔
      ∃ ext, Path.extension? f.name = some ext ∧ ext.toList.map Char.toLower = ['e', 'x', 'e'] := by
  unfold isInstaller
  cases Path.extension? f.name with
  | none => simp
  | some ext => simp [installerExtension]

theorem isInstaller_iff : f.isInstaller = true ↔ f.EndsInExe := by
  rw [isInstaller_eq_true_iff]
  constructor
  · rintro ⟨ext, hext, hlower⟩
    obtain ⟨name, stem, hname, hstem, _, hcut⟩ := Path.extension?_eq_some_iff.mp hext
    rcases f.fileName?_name with hnone | hsome
    · cases hname.symm.trans hnone
    · cases hname.symm.trans hsome
      exact ⟨stem, ext.toList, hstem, hcut, hlower⟩
  · rintro ⟨stem, ext, hstem, hcut, hlower⟩
    have hout : ∀ c : Char, c.toLower ∉ ['e', 'x', 'e'] → c ∉ ext := fun c hc hmem =>
      hc (hlower ▸ List.mem_map_of_mem hmem)
    have hslash : '/' ∉ '.' :: ext :=
      List.not_mem_cons_of_ne_of_not_mem (by decide) (hout '/' (by decide))
    have hlength : ext.length = 3 := by simpa using congrArg List.length hlower
    obtain ⟨name, hname⟩ := Path.exists_fileName?_eq hcut hslash (by simp [hlength])
    have hself : Path.fileName? f.name = some f.name :=
      f.fileName?_name.resolve_left (by simp [hname])
    refine ⟨String.ofList ext, Path.extension?_eq_some_iff.mpr ⟨f.name, stem, hself, hstem, ?_⟩, ?_⟩
    · rw [String.toList_ofList]
      exact ⟨hout '.' (by decide), hcut⟩
    · rwa [String.toList_ofList]

end QueuedFile

namespace FileQueue

variable {q r : FileQueue} {files : List QueuedFile} {f : QueuedFile} {i : Nat}

/-! ## The files -/

theorem files_next (q : FileQueue) : q.next.files = q.files := by
  unfold next
  split
  · rfl
  · split
    · rfl
    · split <;> rfl

theorem files_prev (q : FileQueue) : q.prev.files = q.files := by
  unfold prev
  split
  · rfl
  · split <;> rfl

theorem files_select (q : FileQueue) (i : Nat) : (q.select i).1.files = q.files := by
  unfold select
  split <;> rfl

theorem remove_of_getElem? (h : q.files[i]? = some f) :
    q.remove i = (ofFiles (q.files.eraseIdx i), some f) := by rw [remove, h]

/-! ## The selection -/

/-- The selected number, if there is one, is that of a file. -/
def InRange (q : FileQueue) : Prop := ∀ i, q.selected = some i → i < q.size

/-- The first installer is selected, or no file if there is none. -/
inductive SelectsFirst (q : FileQueue) : Prop
  | installer {before after f} : q.files = before ++ f :: after → f.EndsInExe →
      (∀ g ∈ before, ¬ g.EndsInExe) → q.selected = some before.length → SelectsFirst q
  | noInstaller : (∀ f ∈ q.files, ¬ f.EndsInExe) → q.selected = none → SelectsFirst q

theorem SelectsFirst.inRange (h : q.SelectsFirst) : q.InRange := by
  intro i hi
  cases h with
  | noInstaller _ hnone => cases hi.symm.trans hnone
  | installer hfiles _ _ hselected =>
      cases hi.symm.trans hselected
      rw [size, hfiles, List.length_append]
      exact Nat.lt_add_of_pos_right (Nat.succ_pos _)

/-- A file stands between those in front of it and those behind it. -/
theorem take_append_cons_drop (h : files[i]? = some f) :
    files.take i ++ f :: files.drop (i + 1) = files := by
  obtain ⟨hi, rfl⟩ := List.getElem?_eq_some_iff.mp h
  rw [List.getElem_cons_drop, List.take_append_drop]

theorem length_take_of_getElem? (h : files[i]? = some f) : (files.take i).length = i :=
  List.length_take_of_le (Nat.le_of_lt (List.getElem?_eq_some_iff.mp h).choose)

theorem selectsFirst_ofFiles (files : List QueuedFile) : (ofFiles files).SelectsFirst := by
  cases hfound : files.findIdx? QueuedFile.isInstaller with
  | none =>
      refine .noInstaller (fun f hf hends => ?_) hfound
      have hnot := List.findIdx?_eq_none_iff.mp hfound f hf
      rw [QueuedFile.isInstaller_iff.mpr hends] at hnot
      cases hnot
  | some i =>
      obtain ⟨hi, hinstaller, hbefore⟩ := List.findIdx?_eq_some_iff_getElem.mp hfound
      have hget := List.getElem?_eq_getElem hi
      refine .installer (take_append_cons_drop hget).symm
        (QueuedFile.isInstaller_iff.mp hinstaller) (fun g hg hends => ?_) ?_
      · obtain ⟨j, hj, rfl⟩ := List.mem_take_iff_getElem.mp hg
        exact hbefore j (Nat.lt_of_lt_of_le hj (Nat.min_le_left _ _))
          (QueuedFile.isInstaller_iff.mpr hends)
      · rw [length_take_of_getElem? hget]
        exact hfound

theorem canLoad_iff (h : q.InRange) : q.canLoad = true ↔ ∃ i, q.selected = some i := by
  rw [canLoad, selectedFile]
  cases hselected : q.selected with
  | none => simp
  | some i => simpa [size] using h i hselected

/-! ## Operations -/

/-- What removing the file with a number comes to, and what it answers. -/
inductive Removes (q : FileQueue) (i : Nat) : FileQueue × Option QueuedFile → Prop
  | missing : q.size ≤ i → Removes q i (q, none)
  | removed {before after f r} : q.files = before ++ f :: after → before.length = i →
      r.files = before ++ after → r.SelectsFirst → Removes q i (r, some f)

/-- What selecting the file with a number comes to, and what it answers. -/
inductive Selects (q : FileQueue) (i : Nat) : FileQueue × Bool → Prop
  | missing : q.size ≤ i → Selects q i (q, false)
  | selected : i < q.size → Selects q i ({ q with selected := some i }, true)

/-- What a move comes to that leads from a selected number to another: without a file to nothing,
without a selected one to the first, else to one that is not more than one away. -/
inductive Moves (q : FileQueue) (target : Nat → Nat) : FileQueue → Prop
  | empty : q.files = [] → Moves q target q
  | started : 0 < q.size → q.selected = none → Moves q target { q with selected := some 0 }
  | moved {i : Nat} : q.selected = some i → target i < q.size → target i ≤ i + 1 →
      i ≤ target i + 1 → Moves q target { q with selected := some (target i) }

theorem removes_remove (q : FileQueue) (i : Nat) : Removes q i (q.remove i) := by
  rw [remove]
  split
  · next hnone => exact .missing (List.getElem?_eq_none_iff.mp hnone)
  · next f hf =>
      exact .removed (take_append_cons_drop hf).symm (length_take_of_getElem? hf)
        (List.eraseIdx_eq_take_drop_succ q.files i) (selectsFirst_ofFiles _)

/-- A file that is removed leaves one file less. -/
theorem size_of_remove (h : q.remove i = (r, some f)) : r.size + 1 = q.size := by
  have hremoves := removes_remove q i
  rw [h] at hremoves
  cases hremoves with
  | removed hfiles _ hrest _ =>
      rw [size, size, hrest, hfiles, List.length_append, List.length_append, List.length_cons]
      omega

theorem selects_select (q : FileQueue) (i : Nat) : Selects q i (q.select i) := by
  rw [select]
  split
  · next hi => exact .selected hi
  · next hi => exact .missing (Nat.le_of_not_lt hi)

/-- Without a selected file all moves are the same. -/
theorem moves_of_selected {target : Nat → Nat} {move : Nat → FileQueue}
    (h : ∀ i, q.selected = some i → Moves q target (move i)) :
    Moves q target
      (if q.files.isEmpty then q
      else
        match q.selected with
        | none => { q with selected := some 0 }
        | some i => move i) := by
  split
  · next hempty => exact .empty (List.isEmpty_iff.mp hempty)
  · next hsome =>
      rw [List.isEmpty_iff, ← Ne, ← List.length_pos_iff] at hsome
      cases hselected : q.selected with
      | none => exact .started hsome hselected
      | some i => exact h i hselected

/-- The last file is followed by none. -/
theorem moves_next (h : q.InRange) : Moves q (fun i => min (i + 1) (q.size - 1)) q.next := by
  refine moves_of_selected fun i hselected => ?_
  have hi := h i hselected
  have hmoved : Moves q (fun i => min (i + 1) (q.size - 1))
      { q with selected := some (min (i + 1) (q.size - 1)) } :=
    .moved hselected (by omega) (by omega) (by omega)
  split
  · next hmore =>
      have htarget : min (i + 1) (q.size - 1) = i + 1 := by omega
      rwa [htarget] at hmoved
  · next hlast =>
      -- The queue stays as it is, with its last file selected.
      have htarget : min (i + 1) (q.size - 1) = i := by omega
      rwa [htarget, ← hselected] at hmoved

theorem moves_prev (h : q.InRange) : Moves q (· - 1) q.prev := by
  refine moves_of_selected fun i hselected => ?_
  have hi := h i hselected
  exact .moved hselected (by omega) (by omega) (by omega)

/-! ## Runs -/

theorem inRange_new : InRange {} := nofun

theorem Removes.inRange {r : FileQueue × Option QueuedFile} (hremoves : Removes q i r)
    (h : q.InRange) : r.1.InRange := by
  cases hremoves with
  | missing _ => exact h
  | removed _ _ _ hfirst => exact hfirst.inRange

theorem Selects.inRange {r : FileQueue × Bool} (hselects : Selects q i r) (h : q.InRange) :
    r.1.InRange := by
  cases hselects with
  | missing _ => exact h
  | selected hi =>
      rintro _ ⟨⟩
      exact hi

theorem Moves.inRange {target : Nat → Nat} (hmoves : Moves q target r) (h : q.InRange) :
    r.InRange := by
  cases hmoves with
  | empty _ => exact h
  | started hsome _ =>
      rintro _ ⟨⟩
      exact hsome
  | moved _ hlt _ _ =>
      rintro _ ⟨⟩
      exact hlt

/-- Every operation keeps the selection among the files. -/
theorem InRange.step (h : q.InRange) (op : Operation) : (q.step op).InRange := by
  cases op with
  | add files => exact (selectsFirst_ofFiles _).inRange
  | remove i => exact (removes_remove q i).inRange h
  | select i => exact (selects_select q i).inRange h
  | next => exact (moves_next h).inRange h
  | prev => exact (moves_prev h).inRange h

theorem InRange.run (h : q.InRange) (ops : List Operation) : (q.run ops).InRange := by
  induction ops generalizing q with
  | nil => exact h
  | cons op ops ih => exact ih (h.step op)

theorem run_append (q : FileQueue) (before after : List Operation) :
    q.run (before ++ after) = (q.run before).run after := List.foldl_append

/-- **The selection of a queue**: after any operations on a new queue, the selected number is that
of a file, so that there is a file to load exactly if a number is selected.  Adding puts files
behind the others, and removing takes out the file with the number, in its place and no other, and
both select the first installer; a number that no file has removes and selects nothing; and the
moves select the first file of a queue in which none is selected, and else the next one and the
previous one, up to the ends. -/
theorem selection_run (ops : List Operation) :
    let q := run {} ops
    q.InRange ∧ (q.canLoad = true ↔ ∃ i, q.selected = some i) ∧
      (∀ files, (q.add files).files = q.files ++ files ∧ (q.add files).SelectsFirst) ∧
      (∀ i, Removes q i (q.remove i)) ∧ (∀ i, Selects q i (q.select i)) ∧
      Moves q (fun i => min (i + 1) (q.size - 1)) q.next ∧ Moves q (· - 1) q.prev := by
  intro q
  have h : q.InRange := inRange_new.run ops
  exact ⟨h, canLoad_iff h, fun files => ⟨rfl, selectsFirst_ofFiles _⟩, removes_remove q,
    selects_select q, moves_next h, moves_prev h⟩

/-- The installer is selected, the moves stop at the ends, and without it nothing is selected. -/
example :
    let q := run {} [.add [{ path := "/dl/a.txt", size := 1 }, { path := "/dl/b.EXE", size := 2 }]]
    q.selected = some 1 ∧ q.next = q ∧ q.prev.prev.selected = some 0 ∧ q.select 2 = (q, false) ∧
      q.remove 2 = (q, none) ∧ (q.remove 1).1.selected = none ∧
      (q.remove 1).1.next.selected = some 0 := by decide +kernel

end FileQueue

end InstallerBrowser
