import InstallerBrowser.Proofs.Tree.Runs

/-!
# InstallerBrowser.Proofs.Tree.Cover

The nodes that a request reports.

A node is reported if it is checked and nothing above it speaks for it already; the main root is
never reported and speaks for nothing.  The walk behind `checkedSet` prunes unchecked subtrees,
and finds these nodes all the same (`mem_reported_iff`), since what is above a checked node is not
unchecked.  `checkedSet_run` says what the request of a run reports, and in which order.
-/

namespace InstallerBrowser

namespace SelectionTree

open Hierarchy

variable {t : SelectionTree} {i j l r : Nat}

/-- A checked node other than the main root, with no checked node above it but the main root. -/
def Reported (t : SelectionTree) (i : Nat) : Prop :=
  t.stateOf i = .checked ∧ t.hierarchy.isMainRoot i = false ∧
    ∀ a, t.hierarchy.ProperlyBelow i a →
      t.hierarchy.isMainRoot a = true ∨ t.stateOf a ≠ .checked

/-! ## Reported nodes -/

/-- A reported node is not below another. -/
theorem Reported.not_properlyBelow (hi : t.Reported i) (hj : t.Reported j) :
    ¬ t.hierarchy.ProperlyBelow i j := by
  intro hij
  cases hi.2.2 j hij with
  | inl hmain => exact absurd (hj.2.1.symm.trans hmain) nofun
  | inr hstate => exact hstate hj.1

/-- At most one reported node is at or above a node. -/
theorem Reported.eq_of_below (hi : t.Reported i) (hj : t.Reported j)
    (hli : t.hierarchy.Below l i) (hlj : t.hierarchy.Below l j) : i = j := by
  cases below_or_below hli hlj with
  | inl hij => exact (below_iff.mp hij).resolve_right (hi.not_properlyBelow hj)
  | inr hji => exact ((below_iff.mp hji).resolve_right (hj.not_properlyBelow hi)).symm

/-- A checked node is reported once its parent is the main root or not checked. -/
theorem reported_of_parent (hw : t.hierarchy.WellFormed)
    (hchecked : t.stateOf i = .checked) (hmain : t.hierarchy.isMainRoot i = false)
    (hparent : ∀ p, t.hierarchy.parent i = some p →
      t.hierarchy.isMainRoot p = true ∨ t.stateOf p ≠ .checked) : t.Reported i := by
  refine ⟨hchecked, hmain, fun a ha => ?_⟩
  obtain ⟨p, hp, hpa⟩ := properlyBelow_iff_parent.mp ha
  have hpsize := hw.parent_lt_size hp
  cases hparent p hp with
  | inl hpmain =>
      -- nothing is above the main root
      rw [eq_of_below_of_parent_eq_none hpa (hw.root_of_isMainRoot hpmain).2] at hpmain
      exact .inl hpmain
  | inr hstate =>
      exact .inr fun ha' => hstate
        (stateOf_eq_checked_of_below hw (hw.below_lt_size hpa hpsize) ha' hpa)

/-- A checked node other than the main root has a reported one at or above it. -/
theorem exists_reported_above (hw : t.hierarchy.WellFormed) (hi : i < t.size)
    (hchecked : t.stateOf i = .checked) (hmain : t.hierarchy.isMainRoot i = false) :
    ∃ r < t.size, t.Reported r ∧ t.hierarchy.Below i r := by
  induction i using hw.induction_parent with
  | step i ih =>
      by_cases hup : ∃ p, t.hierarchy.parent i = some p ∧
          t.hierarchy.isMainRoot p = false ∧ t.stateOf p = .checked
      · obtain ⟨p, hp, hpmain, hpchecked⟩ := hup
        obtain ⟨r, hr, hreported, hpr⟩ := ih p hp (hw.parent_lt_size hp) hpchecked hpmain
        exact ⟨r, hr, hreported, (below_of_parent hp).trans hpr⟩
      · refine ⟨i, hi, reported_of_parent hw hchecked hmain fun p hp => ?_, below_refl⟩
        by_contra hneither
        rw [not_or, Bool.not_eq_true, not_not] at hneither
        exact hup ⟨p, hp, hneither⟩

/-- A node is checked exactly if one reported node is at or above it; the main root apart. -/
theorem stateOf_eq_checked_iff_existsUnique (hw : t.hierarchy.WellFormed) (hi : i < t.size)
    (hmain : t.hierarchy.isMainRoot i = false) :
    t.stateOf i = .checked ↔ ∃! r, (r < t.size ∧ t.Reported r) ∧ t.hierarchy.Below i r := by
  constructor
  · intro hchecked
    obtain ⟨r, hr, hreported, hir⟩ := exists_reported_above hw hi hchecked hmain
    exact ⟨r, ⟨⟨hr, hreported⟩, hir⟩, fun r' h => h.1.2.eq_of_below hreported h.2 hir⟩
  · rintro ⟨r, ⟨⟨hr, hreported⟩, hir⟩, _⟩
    exact stateOf_eq_checked_of_below hw hr hreported.1 hir

/-! ## The walk -/

/-- Whether the walk of the request reports a node that it gets to. -/
def isReported (t : SelectionTree) (i : Nat) : Bool :=
  t.allStates.getD i .unchecked == .checked && !t.hierarchy.isMainRoot i

/-- Where the walk of the request goes on from a node. -/
def nextReported (t : SelectionTree) (i : Nat) : List Nat :=
  if t.allStates.getD i .unchecked == .unchecked || t.isReported i then []
  else t.hierarchy.children i

/-- The nodes that the request reports. -/
def reported (t : SelectionTree) : List Nat :=
  (traverse t.nextReported t.hierarchy.size t.hierarchy.roots).1.filter t.isReported

/-- A reported node goes by its number for extraction, and by its path if it has none. -/
theorem checkedSet_eq (t : SelectionTree) : t.checkedSet =
    { files := t.reported.filterMap t.hierarchy.fileId
      dirs := (t.reported.filter fun i => (t.hierarchy.fileId i).isNone).map
        t.hierarchy.path } := rfl

theorem isReported_iff (hw : t.hierarchy.WellFormed) (hi : i < t.size) :
    t.isReported i = true ↔ t.stateOf i = .checked ∧ t.hierarchy.isMainRoot i = false := by
  rw [isReported, getD_allStates hw hi]
  simp

theorem nextReported_cases (t : SelectionTree) (i : Nat) :
    t.nextReported i = [] ∨ t.nextReported i = t.hierarchy.children i := by
  rw [nextReported]
  split
  · exact .inl rfl
  · exact .inr rfl

/-- The walk goes on below an inner node that is neither unchecked nor reported. -/
theorem nextReported_eq_children_iff (hw : t.hierarchy.WellFormed) (hi : i < t.size)
    (hne : t.hierarchy.children i ≠ []) :
    t.nextReported i = t.hierarchy.children i ↔
      t.stateOf i ≠ .unchecked ∧ (t.hierarchy.isMainRoot i = true ∨ t.stateOf i ≠ .checked) := by
  have hreported := isReported_iff hw hi
  rw [nextReported, getD_allStates hw hi]
  split
  · next hstop =>
      refine iff_of_false (fun hnil => hne hnil.symm) fun ⟨hstate, hgo⟩ => ?_
      rw [Bool.or_eq_true, beq_iff_eq, hreported] at hstop
      obtain ⟨hchecked, hmain⟩ := hstop.resolve_left hstate
      exact (hgo.resolve_left (by rw [hmain]; exact Bool.false_ne_true)) hchecked
  · next hgo =>
      rw [Bool.or_eq_true, beq_iff_eq, hreported, not_or, not_and, Bool.not_eq_false] at hgo
      refine iff_of_true rfl ⟨hgo.1, ?_⟩
      by_cases hchecked : t.stateOf i = .checked
      · exact .inl (hgo.2 hchecked)
      · exact .inr hchecked

/-- The walk takes its nodes out of the pre-order, and the reported ones out of these. -/
theorem exists_visits_nextReported (hw : t.hierarchy.WellFormed) :
    ∃ taken, Visits t.nextReported t.hierarchy.roots taken ∧
      t.reported = taken.filter t.isReported := by
  obtain ⟨taken, htaken, _, heq⟩ := hw.exists_traverse_eq t.nextReported_cases
    (fun i hi => (hw.mem_roots.mp hi).1) hw.roots_apart
  exact ⟨taken, htaken, by rw [reported, heq]⟩

theorem reported_sublist (hw : t.hierarchy.WellFormed) {all : List Nat}
    (hall : t.hierarchy.Preorder all) : t.reported.Sublist all := by
  obtain ⟨taken, htaken, heq⟩ := exists_visits_nextReported hw
  rw [heq]
  exact List.filter_sublist.trans (visits_sublist t.nextReported_cases htaken hall.visits)

/-- The pruned walk reports all that is to be reported: it stops above a node only where the node
would be unchecked, or spoken for. -/
theorem mem_reported_iff (hw : t.hierarchy.WellFormed) :
    i ∈ t.reported ↔ i < t.size ∧ t.Reported i := by
  obtain ⟨taken, htaken, heq⟩ := exists_visits_nextReported hw
  have hmem : i < t.size → (i ∈ taken ↔ ∀ a, t.hierarchy.ProperlyBelow i a →
      t.nextReported a = t.hierarchy.children a) := fun hi => by
    rw [mem_visits_iff htaken, hw.leads_from_root_iff t.nextReported_cases hi]
  have hgo : i < t.size → ∀ a, t.hierarchy.ProperlyBelow i a →
      (t.nextReported a = t.hierarchy.children a ↔ t.stateOf a ≠ .unchecked ∧
        (t.hierarchy.isMainRoot a = true ∨ t.stateOf a ≠ .checked)) := fun hi a ha =>
    nextReported_eq_children_iff hw (hw.below_lt_size ha.below hi)
      (hw.children_ne_nil_of_properlyBelow ha)
  rw [heq, List.mem_filter]
  constructor
  · rintro ⟨htake, hreported⟩
    have hi : i < t.size := by
      obtain ⟨r, hr, hri⟩ := (mem_visits_iff htaken).mp htake
      exact lt_size_of_below (hw.below_of_leads t.nextReported_cases hri) (hw.mem_roots.mp hr).1
    obtain ⟨hchecked, hmain⟩ := (isReported_iff hw hi).mp hreported
    exact ⟨hi, hchecked, hmain, fun a ha => ((hgo hi a ha).mp ((hmem hi).mp htake a ha)).2⟩
  · rintro ⟨hi, hchecked, hmain, habove⟩
    refine ⟨(hmem hi).mpr fun a ha => ?_, (isReported_iff hw hi).mpr ⟨hchecked, hmain⟩⟩
    exact (hgo hi a ha).mpr
      ⟨stateOf_ne_unchecked_of_above hw hi hchecked ha.below, habove a ha⟩

/-! ## The request of a run -/

/-- **The request is the minimal exact cover**: after any operations on the tree of a listing, the
request reports the checked nodes that have only the main root and nodes that are not checked
above them, each once, in pre-order with children in listing order, by number or else by path.
No reported node is below another, and a childless node other than the main root is checked
exactly if just one reported node is at or above it. -/
theorem checkedSet_run {entries : List Entry} (hb : build entries = .ok t)
    (ops : List Operation) : ∃ all reported : List Nat,
    (∀ i, (t.hierarchy.node? i).map (·.entry) = entries[i]?) ∧ t.hierarchy.Preorder all ∧
      reported.Sublist all ∧ (∀ i, i ∈ reported ↔ i < t.size ∧ (t.run ops).Reported i) ∧
      (t.run ops).checkedSet =
        { files := reported.filterMap t.hierarchy.fileId
          dirs := (reported.filter fun i => (t.hierarchy.fileId i).isNone).map
            t.hierarchy.path } ∧
      (∀ i ∈ reported, ∀ j ∈ reported, ¬ t.hierarchy.ProperlyBelow i j) ∧
      ∀ l, t.hierarchy.IsLeaf l → t.hierarchy.isMainRoot l = false →
        ((t.run ops).stateOf l = .checked ↔ ∃! r, r ∈ reported ∧ t.hierarchy.Below l r) := by
  have hw := (consistent_run hb ops).wellFormed
  have hmem := fun i => mem_reported_iff (i := i) hw
  have hset := (t.run ops).checkedSet_eq
  have hchecked := fun l => stateOf_eq_checked_iff_existsUnique (i := l) hw
  have hentries : ∀ i, (t.hierarchy.node? i).map (·.entry) = entries[i]? := by
    obtain ⟨h, hh, rfl⟩ := build_eq_ok hb
    exact entry_of_build hh
  obtain ⟨all, hall⟩ := hw.exists_preorder
  have hsub := reported_sublist hw hall
  simp only [size, hierarchy_run] at hw hmem hset hchecked hall
  refine ⟨all, (t.run ops).reported, hentries, hall, hsub, hmem, hset, fun i hi j hj => ?_,
    fun l hl hmain => ?_⟩
  · have hij := ((hmem i).mp hi).2.not_properlyBelow ((hmem j).mp hj).2
    rwa [hierarchy_run] at hij
  · simp only [hmem]
    exact hchecked l hl.1 hmain

/-- With one file of the main root unchecked, its sibling is reported, and the other root as a
whole. -/
theorem checkedSet_run_twoRootListing : ∃ t, build twoRootListing = .ok t ∧
    (t.run [.uncheck 3]).checkedSet = { files := [10], dirs := ["extras"] } ∧
    ∃ reported : List Nat,
      (∀ i, i ∈ reported ↔ i < t.size ∧ (t.run [.uncheck 3]).Reported i) ∧
      (t.run [.uncheck 3]).checkedSet =
        { files := reported.filterMap t.hierarchy.fileId
          dirs := (reported.filter fun i => (t.hierarchy.fileId i).isNone).map
            t.hierarchy.path } := by
  obtain ⟨t, hb⟩ : ∃ t, build twoRootListing = .ok t := ⟨_, rfl⟩
  have hset : (t.run [.uncheck 3]).checkedSet = { files := [10], dirs := ["extras"] } := by
    cases hb
    decide +kernel
  obtain ⟨_, reported, _, _, _, hmem, heq, _⟩ := checkedSet_run hb [.uncheck 3]
  exact ⟨t, hb, hset, reported, hmem, heq⟩

end SelectionTree

end InstallerBrowser
