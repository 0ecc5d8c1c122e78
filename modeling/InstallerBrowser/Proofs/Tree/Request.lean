import InstallerBrowser.Proofs.Tree.Cover
import InstallerBrowser.Proofs.Tree.History

/-!
# InstallerBrowser.Proofs.Tree.Request

Which files a request asks for.

A request asks for the files that it lists, and for all files below the directories that go by
one of its paths (`Denotes`).  That need not be what is checked (`Chosen`): a file with files
below it is reported in their place, the main root is not reported at all, and two directories
can have the same path.  `Faithful` says of a listing that none of this does harm, and
`exact_run_iff_faithful` that exactly the faithful listings have their checked files asked for
after all operations.
-/

namespace InstallerBrowser

namespace Hierarchy

variable {h : Hierarchy} {i j : Nat} {x : FileId}

/-! ## What a request asks for -/

/-- A path asks for the files below the directories that go by it. -/
def PathAsks (h : Hierarchy) (path : String) (x : FileId) : Prop :=
  ∃ d < h.size, h.fileId d = none ∧ h.path d = path ∧ ∃ n, h.ProperlyBelow n d ∧ h.fileId n = some x

/-- A request asks for the files that it lists, and for those that its paths ask for. -/
def Denotes (h : Hierarchy) (set : CheckedSet) (x : FileId) : Prop :=
  x ∈ set.files ∨ ∃ path ∈ set.dirs, h.PathAsks path x

/-- What a report of a node asks for. -/
def Names (h : Hierarchy) (i : Nat) (x : FileId) : Prop :=
  match h.fileId i with
  | some y => x = y
  | none => h.PathAsks (h.path i) x

/-! ## What is checked with a node -/

/-- A node that a request can report: it has a sibling, or it is a root or a child of
the main root. -/
def Nameable (h : Hierarchy) (i : Nat) : Prop :=
  i < h.size ∧ h.isMainRoot i = false ∧
    ∀ p, h.parent i = some p → h.isMainRoot p = true ∨ h.children p ≠ [i]

/-- What is checked when nothing but a nameable node is: all at or below it, and the main root if
the node is its only child. -/
def CheckedWith (h : Hierarchy) (i j : Nat) : Prop :=
  h.Below j i ∨ h.isMainRoot j = true ∧ h.children j = [i]

/-- **A faithful listing**: a file that can be reported is checked without any other file, what the
path of a directory asks for is checked with the directory, and a file that is the main root is
asked for by one of its children. -/
structure Faithful (h : Hierarchy) : Prop where
  file : ∀ {i j x y}, h.Nameable i → h.fileId i = some y → h.CheckedWith i j →
    h.fileId j = some x → x = y
  dir : ∀ {i x}, h.Nameable i → h.fileId i = none → h.PathAsks (h.path i) x →
    ∃ j, h.CheckedWith i j ∧ h.fileId j = some x
  mainRoot : ∀ {m x}, h.isMainRoot m = true → h.fileId m = some x →
    ∃ c ∈ h.children m, h.Names c x

theorem names_of_fileId (hi : h.fileId i = some x) : h.Names i x := by
  rw [Names, hi]

/-- A directory asks for the files below it. -/
theorem names_of_properlyBelow (hi : i < h.size) (hdir : h.fileId i = none)
    (hji : h.ProperlyBelow j i) (hj : h.fileId j = some x) : h.Names i x := by
  rw [Names, hdir]
  exact ⟨i, hi, hdir, rfl, j, hji, hj⟩

/-- A listing is faithful if its files are childless, its main root is no file, and no two of its
directories have the same path. -/
theorem faithful_of_plain (hw : h.WellFormed)
    (hfiles : ∀ i < h.size, h.fileId i ≠ none → h.children i = [])
    (hmain : ∀ m < h.size, h.isMainRoot m = true → h.fileId m = none)
    (hpaths : ∀ i < h.size, ∀ j < h.size, h.fileId i = none → h.fileId j = none →
      h.path i = h.path j → i = j) : h.Faithful where
  file := by
    intro i j x y hi hfile hij hj
    rcases hij with hbelow | ⟨hjmain, _⟩
    · have hleaf : h.IsLeaf i := ⟨hi.1, hfiles i hi.1 (by rw [hfile]; exact Option.some_ne_none y)⟩
      rw [hw.eq_of_below_leaf hleaf hbelow, hfile] at hj
      exact (Option.some.inj hj).symm
    · rw [hmain j (hw.root_of_isMainRoot hjmain).1 hjmain] at hj
      cases hj
  dir := by
    rintro i x hi hdir ⟨d, hd, hddir, hpath, n, hn, hnx⟩
    rw [hpaths d hd i hi.1 hddir hdir hpath] at hn
    exact ⟨n, .inl hn.below, hnx⟩
  mainRoot := by
    intro m x hm hfile
    rw [hmain m (hw.root_of_isMainRoot hm).1 hm] at hfile
    cases hfile

end Hierarchy

namespace SelectionTree

open Hierarchy

variable {t : SelectionTree} {i j l m : Nat} {x y : FileId}

/-- The files that are checked. -/
def Chosen (t : SelectionTree) (x : FileId) : Prop :=
  ∃ i < t.size, t.hierarchy.fileId i = some x ∧ t.stateOf i = .checked

/-- The request asks for exactly the files that are checked. -/
def Exact (t : SelectionTree) : Prop :=
  ∀ x, t.hierarchy.Denotes t.checkedSet x ↔ t.Chosen x

/-- A request asks for what the reports of its nodes ask for. -/
theorem denotes_checkedSet_iff (hw : t.hierarchy.WellFormed) :
    t.hierarchy.Denotes t.checkedSet x ↔
      ∃ i, (i < t.size ∧ t.Reported i) ∧ t.hierarchy.Names i x := by
  rw [checkedSet_eq]
  unfold Denotes
  simp only [List.mem_filterMap, List.mem_map, List.mem_filter, mem_reported_iff hw,
    Option.isNone_iff_eq_none]
  constructor
  · rintro (⟨i, hi, hfile⟩ | ⟨_, ⟨i, ⟨hi, hdir⟩, rfl⟩, hasks⟩)
    · exact ⟨i, hi, names_of_fileId hfile⟩
    · exact ⟨i, hi, by rwa [Names, hdir]⟩
  · rintro ⟨i, hi, hnames⟩
    unfold Names at hnames
    cases hfile : t.hierarchy.fileId i with
    | some y =>
        rw [hfile] at hnames
        exact .inl ⟨i, hi, by rw [hfile, hnames]⟩
    | none =>
        rw [hfile] at hnames
        exact .inr ⟨_, ⟨i, ⟨hi, hfile⟩, rfl⟩, hnames⟩

/-! ## Faithful listings -/

/-- A node is checked with its only child. -/
theorem stateOf_eq_checked_of_onlyChild (hw : t.hierarchy.WellFormed) (hj : j < t.size)
    (hchildren : t.hierarchy.children j = [i]) (hchecked : t.stateOf i = .checked) :
    t.stateOf j = .checked := by
  rw [stateOf_eq_combine hw hj (by rw [hchildren]; exact List.cons_ne_nil i []), hchildren,
    List.map_singleton, hchecked]
  rfl

theorem stateOf_eq_checked_of_checkedWith (hw : t.hierarchy.WellFormed) (hi : i < t.size)
    (hchecked : t.stateOf i = .checked) (hij : t.hierarchy.CheckedWith i j) :
    t.stateOf j = .checked := by
  rcases hij with hbelow | ⟨hmain, hchildren⟩
  · exact stateOf_eq_checked_of_below hw hi hchecked hbelow
  · exact stateOf_eq_checked_of_onlyChild hw (hw.root_of_isMainRoot hmain).1 hchildren hchecked

theorem Reported.nameable (hw : t.hierarchy.WellFormed) (hi : i < t.size) (hr : t.Reported i) :
    t.hierarchy.Nameable i := by
  refine ⟨hi, hr.2.1, fun p hp => ?_⟩
  cases hr.2.2 p (properlyBelow_of_parent hp) with
  | inl hmain => exact .inl hmain
  | inr hstate =>
      exact .inr fun honly => hstate
        (stateOf_eq_checked_of_onlyChild hw (hw.parent_lt_size hp) honly hr.1)

/-- A child of the main root is reported as soon as it is checked. -/
theorem reported_of_mainRoot (hw : t.hierarchy.WellFormed) (hm : t.hierarchy.isMainRoot m = true)
    (hc : c ∈ t.hierarchy.children m) (hchecked : t.stateOf c = .checked) : t.Reported c := by
  have hp := hw.mem_children.mp hc
  refine reported_of_parent hw hchecked ?_ fun p hp' => ?_
  · refine Bool.eq_false_iff.mpr fun hmain => ?_
    rw [(hw.root_of_isMainRoot hmain).2] at hp
    cases hp
  · rw [hp] at hp'
    cases hp'
    exact .inl hm

/-- Of a faithful listing, the request asks for what is checked. -/
theorem exact_of_faithful (hw : t.hierarchy.WellFormed) (hf : t.hierarchy.Faithful) :
    t.Exact := by
  intro x
  rw [denotes_checkedSet_iff hw]
  constructor
  · rintro ⟨i, ⟨hi, hreported⟩, hnames⟩
    unfold Names at hnames
    cases hfile : t.hierarchy.fileId i with
    | some y =>
        rw [hfile] at hnames
        exact ⟨i, hi, by rw [hfile, hnames], hreported.1⟩
    | none =>
        rw [hfile] at hnames
        obtain ⟨j, hij, hj⟩ := hf.dir (hreported.nameable hw hi) hfile hnames
        have hchecked := stateOf_eq_checked_of_checkedWith hw hi hreported.1 hij
        refine ⟨j, ?_, hj, hchecked⟩
        rcases hij with hbelow | ⟨hmain, _⟩
        · exact lt_size_of_below hbelow hi
        · exact (hw.root_of_isMainRoot hmain).1
  · rintro ⟨j, hj, hfile, hchecked⟩
    cases hmain : t.hierarchy.isMainRoot j with
    | true =>
        obtain ⟨c, hc, hnames⟩ := hf.mainRoot hmain hfile
        have hcj := below_of_parent (hw.mem_children.mp hc)
        refine ⟨c, ⟨hw.lt_size_of_mem_children hc, ?_⟩, hnames⟩
        exact reported_of_mainRoot hw hmain hc (stateOf_eq_checked_of_below hw hj hchecked hcj)
    | false =>
        obtain ⟨i, hi, hreported, hji⟩ := exists_reported_above hw hj hchecked hmain
        refine ⟨i, ⟨hi, hreported⟩, ?_⟩
        cases hdir : t.hierarchy.fileId i with
        | some y =>
            rw [hf.file (hreported.nameable hw hi) hdir (.inl hji) hfile]
            exact names_of_fileId hdir
        | none =>
            refine names_of_properlyBelow hi hdir (properlyBelow_of_below_of_ne hji ?_) hfile
            rintro rfl
            rw [hdir] at hfile
            cases hfile

/-! ## Checking one node alone -/

/-- Of the childless nodes, those at or below a node are marked, and no others. -/
def OnlyBelow (t : SelectionTree) (i : Nat) : Prop :=
  ∀ l, t.hierarchy.IsLeaf l → (t.isMarked l = true ↔ t.hierarchy.Below l i)

/-- A node other than the main root is checked alone by unchecking all and checking it. -/
theorem onlyBelow_run_check (hc : t.Consistent) (hi : i < t.size)
    (hmain : t.hierarchy.isMainRoot i = false) :
    (t.run [.uncheckAll, .check (t.hierarchy.key i)]).OnlyBelow i := by
  intro l hl
  rw [hierarchy_run] at hl ⊢
  have hcovers : (Write.mk true (some (t.hierarchy.key i))).Covers t.hierarchy l ↔
      t.hierarchy.Below l i := Write.covers_key_iff hc.wellFormed hi hmain
  by_cases hli : t.hierarchy.Below l i
  · have hmark := isMarked_run_of_last hc hl [⟨false, none⟩] _ [] (hcovers.mpr hli)
      fun w' hw' => by cases hw'
    exact iff_of_true hmark hli
  · have hmark := isMarked_run_of_last hc hl [] ⟨false, none⟩
      [⟨true, some (t.hierarchy.key i)⟩] trivial fun w' hw' => by
        rw [List.mem_singleton.mp hw', hcovers]
        exact hli
    refine iff_of_false (fun hset => ?_) hli
    exact Bool.noConfusion (hset.symm.trans hmark)

/-- The main root is checked alone by checking all and unchecking the other roots. -/
theorem exists_onlyBelow_mainRoot (hc : t.Consistent) (hm : t.hierarchy.isMainRoot m = true) :
    ∃ ops, (t.run ops).OnlyBelow m := by
  have hw := hc.wellFormed
  have hroot := (hw.root_of_isMainRoot hm).2
  obtain ⟨ws, hws⟩ : ∃ ws : List Write, ws = (t.hierarchy.roots.filter (· ≠ m)).map fun r =>
    ⟨false, some (t.hierarchy.key r)⟩ := ⟨_, rfl⟩
  have hmem : ∀ {w}, w ∈ ws ↔ ∃ r ∈ t.hierarchy.roots, r ≠ m ∧
      ⟨false, some (t.hierarchy.key r)⟩ = w := by
    simp [hws, and_assoc]
  have hcovers : ∀ r ∈ t.hierarchy.roots, r ≠ m → ∀ l,
      (Write.mk false (some (t.hierarchy.key r))).Covers t.hierarchy l ↔
        t.hierarchy.Below l r := by
    intro r hr hne l
    refine Write.covers_key_iff hw (hw.mem_roots.mp hr).1 ?_
    exact Bool.eq_false_iff.mpr fun hmain => hne (eq_of_isMainRoot hmain hm)
  refine ⟨(⟨true, none⟩ :: ws).map Write.operation, fun l hl => ?_⟩
  rw [hierarchy_run] at hl ⊢
  by_cases hlm : t.hierarchy.Below l m
  · have hmark := isMarked_run_of_last hc hl [] ⟨true, none⟩ ws trivial
      fun w hw' hcover => by
        obtain ⟨r, hr, hne, rfl⟩ := hmem.mp hw'
        have hp := (hw.mem_roots.mp hr).2.trans hroot.symm
        exact hw.not_below_of_parent_eq hne hp ((hcovers r hr hne l).mp hcover) hlm
    exact iff_of_true hmark hlm
  · obtain ⟨r, hr, hlr⟩ := hw.exists_root_above hl.1
    have hne : r ≠ m := by
      rintro rfl
      exact hlm hlr
    obtain ⟨before, w, after, heq, hcover, hafter⟩ := Write.exists_last_covering
      ⟨_, hmem.mpr ⟨r, hr, hne, rfl⟩, (hcovers r hr hne l).mpr hlr⟩
    obtain ⟨_, _, _, rfl⟩ := hmem.mp (heq ▸ List.mem_append_right before List.mem_cons_self)
    have hmark := isMarked_run_of_last hc hl (⟨true, none⟩ :: before) _ after hcover hafter
    rw [heq]
    refine iff_of_false (fun hset => ?_) hlm
    exact Bool.noConfusion (hset.symm.trans hmark)

namespace OnlyBelow

theorem stateOf_iff (ho : t.OnlyBelow i) (hw : t.hierarchy.WellFormed) (hj : j < t.size) :
    t.stateOf j = .checked ↔
      ∀ l, t.hierarchy.IsLeaf l → t.hierarchy.Below l j → t.hierarchy.Below l i := by
  rw [stateOf_eq_checked_iff hw hj]
  exact forall₂_congr fun l hl => by rw [ho l hl]

theorem checkedWith_iff (ho : t.OnlyBelow i) (hw : t.hierarchy.WellFormed)
    (hi : t.hierarchy.Nameable i) (hj : j < t.size) :
    t.stateOf j = .checked ↔ t.hierarchy.CheckedWith i j := by
  have hself : t.stateOf i = .checked := (ho.stateOf_iff hw hi.1).mpr fun _ _ h => h
  refine ⟨fun hchecked => ?_, stateOf_eq_checked_of_checkedWith hw hi.1 hself⟩
  have hleaves := (ho.stateOf_iff hw hj).mp hchecked
  obtain ⟨l, hl, hlj⟩ := hw.exists_leaf_below hj
  rcases below_or_below hlj (hleaves l hl hlj) with hji | hij
  · exact .inl hji
  rcases below_iff.mp hij with rfl | hproper
  · exact .inl below_refl
  -- no sibling of `i` has a checked leaf
  obtain ⟨p, hp, hpj⟩ := properlyBelow_iff_parent.mp hproper
  have honly : t.hierarchy.children p = [i] := by
    refine hw.children_eq_singleton hp fun c hc => ?_
    by_contra hne
    have hcp := hw.mem_children.mp hc
    obtain ⟨k, hk, hkc⟩ := hw.exists_leaf_below (hw.lt_size_of_mem_children hc)
    refine hw.not_below_of_parent_eq hne (hcp.trans hp.symm) hkc (hleaves k hk ?_)
    exact hkc.trans ((below_of_parent hcp).trans hpj)
  have hmain := (hi.2.2 p hp).resolve_right fun hne => hne honly
  obtain rfl := eq_of_below_of_parent_eq_none hpj (hw.root_of_isMainRoot hmain).2
  exact .inr ⟨hmain, honly⟩

/-- Where a nameable node is checked alone, it is what is reported. -/
theorem reported_iff (ho : t.OnlyBelow i) (hw : t.hierarchy.WellFormed)
    (hi : t.hierarchy.Nameable i) (hj : j < t.size) : t.Reported j ↔ j = i := by
  have hself := (ho.checkedWith_iff hw hi hi.1).mpr (.inl below_refl)
  constructor
  · intro hreported
    rcases (ho.checkedWith_iff hw hi hj).mp hreported.1 with hbelow | ⟨hmain, _⟩
    · refine (below_iff.mp hbelow).resolve_right fun hproper => ?_
      cases hreported.2.2 i hproper with
      | inl hmain => exact Bool.noConfusion (hi.2.1.symm.trans hmain)
      | inr hstate => exact hstate hself
    · exact Bool.noConfusion (hreported.2.1.symm.trans hmain)
  · rintro rfl
    refine reported_of_parent hw hself hi.2.1 fun p hp => ?_
    by_contra hnot
    rw [not_or, not_not] at hnot
    rcases (ho.checkedWith_iff hw hi (hw.parent_lt_size hp)).mp hnot.2 with hbelow | ⟨hmain, _⟩
    · exact hw.not_properlyBelow_self
        (Relation.TransGen.trans_left (properlyBelow_of_parent hp) hbelow)
    · exact hnot.1 hmain

/-- Where the main root is checked alone, only its children are reported. -/
theorem mem_children_of_reported (ho : t.OnlyBelow m) (hw : t.hierarchy.WellFormed)
    (hm : t.hierarchy.isMainRoot m = true) (hi : i < t.size) (hr : t.Reported i) :
    i ∈ t.hierarchy.children m := by
  have hroot := hw.root_of_isMainRoot hm
  have hself : t.stateOf m = .checked := (ho.stateOf_iff hw hroot.1).mpr fun _ _ h => h
  have him : t.hierarchy.Below i m := by
    obtain ⟨l, hl, hli⟩ := hw.exists_leaf_below hi
    cases below_or_below hli ((ho.stateOf_iff hw hi).mp hr.1 l hl hli) with
    | inl him => exact him
    | inr hmi =>
        rw [eq_of_below_of_parent_eq_none hmi hroot.2]
        exact below_refl
  have hne : i ≠ m := by
    rintro rfl
    exact Bool.noConfusion (hr.2.1.symm.trans hm)
  obtain ⟨c, hc, hic⟩ := hw.properlyBelow_iff_child.mp (properlyBelow_of_below_of_ne him hne)
  have hcm := below_of_parent (hw.mem_children.mp hc)
  have hchecked := stateOf_eq_checked_of_below hw hroot.1 hself hcm
  rwa [hr.eq_of_below (reported_of_mainRoot hw hm hc hchecked) below_refl hic]

/-- Where the request is exact, a nameable file that is checked alone is checked without any
other. -/
theorem fileId_eq (ho : t.OnlyBelow i) (hw : t.hierarchy.WellFormed)
    (hi : t.hierarchy.Nameable i) (hexact : t.Exact) (hfile : t.hierarchy.fileId i = some y)
    (hj : j < t.size) (hij : t.hierarchy.CheckedWith i j)
    (hjfile : t.hierarchy.fileId j = some x) : x = y := by
  have hchosen : t.Chosen x := ⟨j, hj, hjfile, (ho.checkedWith_iff hw hi hj).mpr hij⟩
  obtain ⟨k, ⟨hk, hreported⟩, hnames⟩ :=
    (denotes_checkedSet_iff hw).mp ((hexact x).mpr hchosen)
  obtain rfl := (ho.reported_iff hw hi hk).mp hreported
  rwa [Names, hfile] at hnames

/-- Where the request is exact, the path of a nameable directory that is checked alone asks for
what is checked with it. -/
theorem exists_checkedWith (ho : t.OnlyBelow i) (hw : t.hierarchy.WellFormed)
    (hi : t.hierarchy.Nameable i) (hexact : t.Exact) (hdir : t.hierarchy.fileId i = none)
    (hasks : t.hierarchy.PathAsks (t.hierarchy.path i) x) :
    ∃ j, t.hierarchy.CheckedWith i j ∧ t.hierarchy.fileId j = some x := by
  have hnames : t.hierarchy.Names i x := by rwa [Names, hdir]
  have hreported := (ho.reported_iff hw hi hi.1).mpr rfl
  obtain ⟨j, hj, hfile, hchecked⟩ :=
    (hexact x).mp ((denotes_checkedSet_iff hw).mpr ⟨i, ⟨hi.1, hreported⟩, hnames⟩)
  exact ⟨j, (ho.checkedWith_iff hw hi hj).mp hchecked, hfile⟩

/-- Where the request is exact and the main root a file that is checked alone, one of its children
asks for it. -/
theorem exists_child_names (ho : t.OnlyBelow m) (hw : t.hierarchy.WellFormed)
    (hm : t.hierarchy.isMainRoot m = true) (hexact : t.Exact)
    (hfile : t.hierarchy.fileId m = some x) :
    ∃ c ∈ t.hierarchy.children m, t.hierarchy.Names c x := by
  have hmsize := (hw.root_of_isMainRoot hm).1
  have hchosen : t.Chosen x := ⟨m, hmsize, hfile, (ho.stateOf_iff hw hmsize).mpr fun _ _ h => h⟩
  obtain ⟨c, ⟨hc, hreported⟩, hnames⟩ :=
    (denotes_checkedSet_iff hw).mp ((hexact x).mpr hchosen)
  exact ⟨c, ho.mem_children_of_reported hw hm hc hreported, hnames⟩

end OnlyBelow

theorem faithful_of_exact (hc : t.Consistent) (hexact : ∀ ops, (t.run ops).Exact) :
    t.hierarchy.Faithful where
  file := by
    intro i j x y hi hfile hij hj
    have ho := onlyBelow_run_check hc hi.1 hi.2.1
    have hjsize : j < t.size := lt_size_of_fileId hj
    rw [← hierarchy_run t] at hi hfile hij hj
    refine ho.fileId_eq (hc.run _).wellFormed hi (hexact _) hfile ?_ hij hj
    rwa [size, hierarchy_run]
  dir := by
    intro i x hi hdir hasks
    have ho := onlyBelow_run_check hc hi.1 hi.2.1
    rw [← hierarchy_run t] at hi hdir hasks
    have hchecked := ho.exists_checkedWith (hc.run _).wellFormed hi (hexact _) hdir hasks
    rwa [hierarchy_run] at hchecked
  mainRoot := by
    intro m x hm hfile
    obtain ⟨ops, ho⟩ := exists_onlyBelow_mainRoot hc hm
    rw [← hierarchy_run t ops] at hm hfile ⊢
    exact ho.exists_child_names (hc.run ops).wellFormed hm (hexact ops) hfile

/-! ## The request of a run -/

/-- **When the request is exact**: the files that the request asks for are the checked ones after
all operations on the tree of a listing, exactly if the listing is faithful. -/
theorem exact_run_iff_faithful {entries : List Entry} (hb : build entries = .ok t) :
    (∀ ops, (t.run ops).Exact) ↔ t.hierarchy.Faithful := by
  have hc := consistent_build hb
  refine ⟨faithful_of_exact hc, fun hf ops => exact_of_faithful (hc.run ops).wellFormed ?_⟩
  rwa [hierarchy_run]

/-- In a listing with plain files and plain directories, the request is always exact. -/
theorem exact_run_twoRootListing : ∃ t, build twoRootListing = .ok t ∧
    t.hierarchy.Faithful ∧ ∀ ops, (t.run ops).Exact := by
  obtain ⟨t, hb⟩ : ∃ t, build twoRootListing = .ok t := ⟨_, rfl⟩
  have hf : t.hierarchy.Faithful := by
    refine faithful_of_plain (consistent_build hb).wellFormed ?_ ?_ ?_
    · cases hb
      decide +kernel
    · cases hb
      decide +kernel
    · cases hb
      decide +kernel
  exact ⟨t, hb, hf, (exact_run_iff_faithful hb).mpr hf⟩

/-- A listing in which one file is below another. -/
def nestedFileListing : List Entry :=
  [ { node := 0, name := "Setup", isMainRoot := true }
  , { node := 1, name := "pkg", fileId := some 7, parentId := some 0 }
  , { node := 2, name := "a.txt", fileId := some 8, parentId := some 1 } ]

/-- A file below another file is checked, and the request does not ask for it. -/
theorem not_exact_nestedFileListing : ∃ t, build nestedFileListing = .ok t ∧
    t.checkedSet = { files := [7], dirs := [] } ∧ t.Chosen 8 ∧
    ¬ t.hierarchy.Denotes t.checkedSet 8 := by
  obtain ⟨t, hb⟩ : ∃ t, build nestedFileListing = .ok t := ⟨_, rfl⟩
  have hset : t.checkedSet = { files := [7], dirs := [] } := by
    cases hb
    decide +kernel
  have hchosen : t.Chosen 8 := ⟨2, by cases hb; decide +kernel⟩
  refine ⟨t, hb, hset, hchosen, ?_⟩
  rw [hset]
  rintro (hfile | ⟨_, hdir, _⟩)
  · exact absurd hfile (by decide)
  · cases hdir

end SelectionTree

end InstallerBrowser
