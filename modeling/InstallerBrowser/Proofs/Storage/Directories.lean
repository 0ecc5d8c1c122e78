import InstallerBrowser.Proofs.Storage.Parents

/-!
# InstallerBrowser.Proofs.Storage.Directories

Making directories.

What makes directories only adds some, where nothing was, at places that are no longer than the
path allows (`Grows`), and none at all for a path whose directories are there
(`growParent_of_resolve`).  So in a tree a path that does not climb is as free behind that as it was
before (`pathExists_growParent`).
-/

namespace InstallerBrowser.FileStore

open InstallerBrowser.Path

variable {a b c : FileStore} {place target : Place} {path parent name : String}
  {names : List String} {bound bound' : Nat}

/-! ## What grows -/

/-- A store has all that another has, and at most more directories, of a bounded number of
names. -/
structure Grows (bound : Nat) (a b : FileStore) : Prop where
  workingDir : b.workingDir = a.workingDir
  get? : ∀ place, b.get? place = a.get? place ∨
    a.get? place = none ∧ b.get? place = some .dir ∧ place.length ≤ bound

theorem grows_refl (bound : Nat) (a : FileStore) : Grows bound a a := ⟨rfl, fun _ => .inl rfl⟩

theorem Grows.mono (h : Grows bound a b) (hle : bound ≤ bound') : Grows bound' a b where
  workingDir := h.workingDir
  get? place := by
    rcases h.get? place with heq | ⟨hnone, hdir, hlength⟩
    · exact .inl heq
    · exact .inr ⟨hnone, hdir, Nat.le_trans hlength hle⟩

theorem Grows.trans (h : Grows bound a b) (h' : Grows bound b c) : Grows bound a c where
  workingDir := h'.workingDir.trans h.workingDir
  get? place := by
    rcases h.get? place with heq | ⟨hnone, hdir, hlength⟩
    · rw [← heq]
      exact h'.get? place
    · rcases h'.get? place with heq' | ⟨hnone', _⟩
      · exact .inr ⟨hnone, heq'.trans hdir, hlength⟩
      · exact nomatch hdir.symm.trans hnone'

theorem Grows.reach_eq (h : Grows bound a b) (path : String) : b.reach path = a.reach path := by
  rw [reach, reach, startOf, startOf, h.workingDir]

theorem grows_put_dir (h : a.get? place = none) (hlength : place.length ≤ bound) :
    Grows bound a (a.put place .dir) where
  workingDir := rfl
  get? other := by
    by_cases hother : other = place
    · subst hother
      have hroot : other ≠ [] := by
        rintro rfl
        cases h
      exact .inr ⟨h, get?_put_self a other .dir hroot, hlength⟩
    · exact .inl (get?_put_of_ne a .dir hother)

/-! ## Making directories -/

/-- What is made is a directory at the place where the path leads, and nothing was there. -/
theorem makeDir_eq_ok (h : a.makeDir path = .ok b) :
    ∃ place, a.resolveNew path = .ok place ∧ a.get? place = none ∧ b = a.put place .dir := by
  rw [makeDir] at h
  cases hplace : a.resolveNew path with
  | error e =>
      rw [hplace] at h
      cases h
  | ok place =>
      simp only [hplace, bind, Except.bind] at h
      cases hnone : a.get? place with
      | some entry =>
          rw [hnone] at h
          cases h
      | none =>
          simp only [hnone] at h
          cases hparent : a.checkParent place with
          | error e =>
              rw [hparent] at h
              cases h
          | ok _ =>
              rw [hparent] at h
              cases h
              exact ⟨place, rfl, hnone, rfl⟩

theorem grows_makeDir (h : a.makeDir path = .ok b) : Grows (a.reach path) a b := by
  obtain ⟨place, hplace, hnone, rfl⟩ := makeDir_eq_ok h
  exact grows_put_dir hnone (length_resolveNew_le hplace)

theorem grows_ensureDir (a : FileStore) (path : String) :
    Grows (a.reach path) a (a.ensureDir path).1 := by
  rw [ensureDir]
  cases hmake : a.makeDir path with
  | ok b => exact grows_makeDir hmake
  | error e => exact grows_refl _ a

theorem growDirs_go_empty (a : FileStore) (n : Nat) : growDirs.go a n "" = (a, .ok ()) := by
  cases n with
  | zero => rfl
  | succ n => rw [growDirs.go, if_pos rfl]

theorem grows_growDirs_go (a : FileStore) (n : Nat) (path : String) :
    Grows (a.reach path) a (growDirs.go a n path).1 := by
  induction n generalizing path with
  | zero => exact grows_refl _ a
  | succ n ih =>
      rw [growDirs.go]
      split
      · exact grows_refl _ a
      · cases hmake : a.makeDir path with
        | ok b => exact grows_makeDir hmake
        | error e =>
            cases e with
            | notFound =>
                cases hparent : parent? path with
                | none => exact grows_refl _ a
                | some parent =>
                    -- What leads to the parent reaches less far than the path itself.
                    have hmiddle : Grows (a.reach path) a (growDirs.go a n parent).1 := by
                      by_cases hne : parent = ""
                      · rw [hne, growDirs_go_empty]
                        exact grows_refl _ a
                      · exact (ih parent).mono (Nat.le_of_lt (reach_parent_lt hparent hne))
                    simp only
                    generalize growDirs.go a n parent = r at hmiddle ⊢
                    obtain ⟨middle, e | ⟨⟩⟩ := r
                    · exact hmiddle
                    · have hlast := grows_ensureDir middle path
                      rw [hmiddle.reach_eq] at hlast
                      exact hmiddle.trans hlast
            | _ => exact grows_refl _ a

/-- The directories that lead to a path have fewer names than the path allows. -/
theorem grows_growParent (a : FileStore) (path : String) :
    Grows (a.reach path - 1) a (OutputSink.growParent a path).1 := by
  rw [OutputSink.growParent]
  cases hparent : parent? path with
  | none => exact grows_refl _ a
  | some parent =>
      by_cases hne : parent = ""
      · simp only [if_pos hne]
        exact grows_refl _ a
      · have hlt : a.reach parent ≤ a.reach path - 1 :=
          Nat.le_sub_one_of_lt (reach_parent_lt hparent hne)
        simp only [if_neg hne]
        exact (grows_growDirs_go a _ parent).mono hlt

theorem makeDir_of_dir (h : a.resolveNew path = .ok place) (hdir : a.get? place = some .dir) :
    a.makeDir path = .error .alreadyExists := by
  rw [makeDir, h]
  simp only [bind, Except.bind, hdir]

theorem growDirs_of_dir (hne : path ≠ "") (h : a.resolveNew path = .ok place)
    (hdir : a.get? place = some .dir) : (a.growDirs path).1 = a := by
  rw [growDirs, List.length_cons, growDirs.go, if_neg hne, makeDir_of_dir h hdir]

/-- Where the directories that lead to a path are there, none is made. -/
theorem growParent_of_resolve (hnames : pathNames path = names ++ [name]) (hname : IsProper name)
    (h : a.resolve path = .ok place) : (OutputSink.growParent a path).1 = a := by
  obtain ⟨⟨_, hnul⟩, _, dir, hfollow, hdir, rfl⟩ := (resolve_eq_ok hnames hname).mp h
  obtain ⟨parts, _, rfl, hparts⟩ := exists_parts hnames hname
  rw [OutputSink.growParent]
  cases hparent : parent? path with
  | none => rfl
  | some parent =>
      by_cases hne : parent = ""
      · simp only [if_pos hne]
      · obtain ⟨habs, last, hlast⟩ := (parent?_eq_some hparent).resolve_left hne
        have hfilter := (List.append_inj' (hparts.symm.trans hlast) rfl).1
        have hnew : a.resolveNew parent = .ok dir := by
          refine resolveNew_eq_ok hne (not_mem_parent (by decide) (by decide) hnul hlast) ?_ hdir
          rw [← hfilter, startOf, habs]
          exact (follow_filter (dir_of_follow hfollow hdir) hdir).mp hfollow
        simp only [if_neg hne]
        exact growDirs_of_dir hne hnew hdir

/-! ## A path that does not climb -/

/-- Every place lies in a directory. -/
def IsTree (store : FileStore) : Prop :=
  ∀ place, place ≠ [] → store.get? place ≠ none → store.get? place.dropLast = some .dir

theorem IsTree.get?_ne_none {more : Place} (h : a.IsTree) (hplace : a.get? (place ++ more) ≠ none) :
    a.get? place ≠ none := by
  induction more generalizing place with
  | nil => rwa [List.append_nil] at hplace
  | cons name more ih =>
      rw [List.append_cons] at hplace
      have hroot : place ++ [name] ≠ [] := List.append_ne_nil_of_right_ne_nil place nofun
      have hdir := h (place ++ [name]) hroot (ih hplace)
      rw [List.dropLast_concat] at hdir
      simp [hdir]

/-- Names that do not climb lead below a directory by all that count. -/
theorem follow_eq_append {parts : List (List Char)} (hup : ".." ∉ parts.map String.ofList)
    (h : a.follow place (parts.map String.ofList) = .ok target) :
    target = place ++ (parts.filter fun part => !isSkipped part).map String.ofList := by
  induction parts generalizing place with
  | nil =>
      cases h
      exact (List.append_nil _).symm
  | cons part parts ih =>
      rw [List.map_cons, List.mem_cons, not_or] at hup
      rw [List.map_cons] at h
      obtain ⟨_, next, hnext, hrest⟩ := follow_cons_eq_ok.mp h
      have htarget := ih hup.2 hrest
      cases hpart : isSkipped part with
      | true =>
          rw [nextPlace_of_isSkipped hpart] at hnext
          cases hnext
          rwa [List.filter_cons_of_neg (by simp [hpart])]
      | false =>
          have hproper := isProper_of_not_isSkipped hpart hup.1
          obtain ⟨_, rfl⟩ := (nextPlace_of_isProper hproper).mp hnext
          rw [htarget, List.filter_cons_of_pos (by simp [hpart]), List.map_cons, List.append_assoc]
          rfl

/-- Where names that do not climb lead to something that was there before, they led there before. -/
theorem Grows.follow_symm {parts : List (List Char)} (h : Grows bound a b) (htree : a.IsTree)
    (hup : ".." ∉ parts.map String.ofList)
    (hfollow : b.follow place (parts.map String.ofList) = .ok target)
    (htarget : a.get? target ≠ none) : a.follow place (parts.map String.ofList) = .ok target := by
  induction parts generalizing place with
  | nil => exact hfollow
  | cons part parts ih =>
      have hplace : a.get? place ≠ none :=
        htree.get?_ne_none (follow_eq_append hup hfollow ▸ htarget)
      rw [List.map_cons] at hfollow hup ⊢
      obtain ⟨hdir, next, hnext, hrest⟩ := follow_cons_eq_ok.mp hfollow
      rw [List.mem_cons, not_or] at hup
      refine follow_cons_eq_ok.mpr ⟨?_, next, hnext, ih hup.2 hrest⟩
      rcases h.get? place with heq | ⟨hnone, _⟩
      · exact heq.symm.trans hdir
      · exact absurd hnone hplace

/-- A path that is free stays free behind the directories that are made for it, if these are there
already, or if the path does not climb in a tree. -/
theorem pathExists_growParent (hnames : pathNames path = names ++ [name]) (hname : IsProper name)
    (hfree : a.pathExists path = false)
    (hplain : (∃ place, a.resolve path = .ok place) ∨ a.IsTree ∧ ".." ∉ pathNames path) :
    (OutputSink.growParent a path).1.pathExists path = false := by
  rcases hplain with ⟨place, hplace⟩ | ⟨htree, hup⟩
  · rwa [growParent_of_resolve hnames hname hplace]
  · have hgrows := grows_growParent a path
    generalize (OutputSink.growParent a path).1 = b at hgrows
    refine pathExists_eq_false_iff.mpr fun place hplace => ?_
    obtain ⟨hpath, hnul⟩ := resolve_ok_ne hplace
    rw [resolve_eq hpath hnul] at hplace
    have hstart : b.startOf path = a.startOf path := by rw [startOf, startOf, hgrows.workingDir]
    rw [hstart] at hplace
    have hlength : place.length = a.reach path := by
      rw [follow_eq_append hup hplace, List.length_append, List.length_map]
      rfl
    have hpos : 0 < a.reach path := by
      obtain ⟨parts, _, _, hparts⟩ := exists_parts hnames hname
      rw [reach, hparts, List.length_append, List.length_singleton]
      omega
    -- What is made has fewer names, so nothing is made at this place.
    rcases hgrows.get? place with heq | ⟨_, _, hle⟩
    · rw [heq]
      cases hentry : a.get? place with
      | none => rfl
      | some entry =>
          have hthere : a.get? place ≠ none := by simp [hentry]
          have hbefore : a.resolve path = .ok place :=
            (resolve_eq hpath hnul).trans (hgrows.follow_symm htree hup hplace hthere)
          exact absurd (pathExists_eq_false_iff.mp hfree place hbefore) hthere
    · omega

end InstallerBrowser.FileStore
