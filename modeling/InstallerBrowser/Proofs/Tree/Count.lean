import InstallerBrowser.Proofs.Tree.Request

/-!
# InstallerBrowser.Proofs.Tree.Count

The number of checked files and the request.

Both come down to the marked childless nodes.  The number of checked files is not zero if one of
them has a file at or above it (`checkedCount_ne_zero_iff`); the request is not empty if one of them
is not the main root (`isEmpty_checkedSet_iff`).  As any childless node can be the only one that is
marked, the two agree after all operations exactly if they agree on each of these nodes
(`Hierarchy.Counted`).
-/

namespace InstallerBrowser

/-- A listing in which a childless node is the main root, or has a file at or above it, and never
both. -/
def Hierarchy.Counted (h : Hierarchy) : Prop :=
  ∀ l, h.IsLeaf l → ((∃ i, h.fileId i ≠ none ∧ h.Below l i) ↔ h.isMainRoot l = false)

/-- A listing is counted if its childless nodes are files other than the main root. -/
theorem Hierarchy.counted_of_plain {h : Hierarchy}
    (hplain : ∀ l < h.size, h.children l = [] → h.fileId l ≠ none ∧ h.isMainRoot l = false) :
    h.Counted := by
  intro l hl
  obtain ⟨hfile, hmain⟩ := hplain l hl.1 hl.2
  exact iff_of_true ⟨l, hfile, below_refl⟩ hmain

namespace SelectionTree

open Hierarchy

variable {t : SelectionTree} {i l : Nat}

/-! ## Marked childless nodes -/

theorem checkedCount_ne_zero_iff_marked :
    t.checkedCount ≠ 0 ↔ ∃ i < t.size, t.hierarchy.fileId i ≠ none ∧ t.isMarked i = true := by
  have hcount : t.checkedCount = ((List.range t.size).filter fun i =>
    (t.hierarchy.fileId i).isSome && t.isMarked i).length := rfl
  rw [hcount, Ne, List.length_eq_zero_iff, List.filter_eq_nil_iff]
  simp [Option.isSome_iff_ne_none]

/-- The number of checked files is not zero if a marked childless node has a file at or above it. -/
theorem checkedCount_ne_zero_iff (hc : t.Consistent) :
    t.checkedCount ≠ 0 ↔ ∃ l, t.hierarchy.IsLeaf l ∧ t.isMarked l = true ∧
      ∃ i, t.hierarchy.fileId i ≠ none ∧ t.hierarchy.Below l i := by
  have hw := hc.wellFormed
  rw [checkedCount_ne_zero_iff_marked]
  constructor
  · rintro ⟨i, hi, hfile, hmark⟩
    obtain ⟨l, hl, hli, hlmark⟩ :=
      (stateOf_ne_unchecked_iff hw hi).mp ((hc.isMarked_iff hi).mp hmark)
    exact ⟨l, hl, hlmark, i, hfile, hli⟩
  · rintro ⟨l, hl, hlmark, i, hfile, hli⟩
    exact ⟨i, hw.below_lt_size hli hl.1, hfile, hc.isMarked_of_above hl.1 hlmark hli⟩

theorem isEmpty_checkedSet_eq_false_iff_reported :
    t.checkedSet.isEmpty = false ↔ ∃ i, i ∈ t.reported := by
  rw [checkedSet_eq, CheckedSet.isEmpty, ← Bool.not_eq_true, Bool.and_eq_true,
    List.isEmpty_iff, List.isEmpty_iff, List.filterMap_eq_nil_iff, List.map_eq_nil_iff,
    List.filter_eq_nil_iff]
  constructor
  · intro hsome
    by_contra hnone
    exact hsome ⟨fun i hi => absurd ⟨i, hi⟩ hnone, fun i hi => absurd ⟨i, hi⟩ hnone⟩
  · rintro ⟨i, hi⟩ ⟨hfiles, hdirs⟩
    exact hdirs i hi (by rw [hfiles i hi]; rfl)

/-- The request is not empty if a marked childless node is not the main root. -/
theorem isEmpty_checkedSet_eq_false_iff (hw : t.hierarchy.WellFormed) :
    t.checkedSet.isEmpty = false ↔
      ∃ l, t.hierarchy.IsLeaf l ∧ t.isMarked l = true ∧ t.hierarchy.isMainRoot l = false := by
  simp only [isEmpty_checkedSet_eq_false_iff_reported, mem_reported_iff hw]
  constructor
  · rintro ⟨r, hr, hreported⟩
    obtain ⟨l, hl, hlr⟩ := hw.exists_leaf_below hr
    refine ⟨l, hl, (stateOf_eq_checked_iff hw hr).mp hreported.1 l hl hlr, ?_⟩
    -- nothing is above the main root
    refine Bool.eq_false_iff.mpr fun hmain => ?_
    have hsame := eq_of_below_of_parent_eq_none hlr (hw.root_of_isMainRoot hmain).2
    rw [hsame] at hmain
    exact Bool.noConfusion (hreported.2.1.symm.trans hmain)
  · rintro ⟨l, hl, hmark, hmain⟩
    have hchecked : t.stateOf l = .checked := by
      rw [stateOf_leaf hw hl, hmark]
      rfl
    obtain ⟨r, hr, hreported, _⟩ := exists_reported_above hw hl.1 hchecked hmain
    exact ⟨r, hr, hreported⟩

/-! ## Agreement -/

/-- Nothing is counted exactly if nothing is asked for. -/
def CountAgrees (t : SelectionTree) : Prop :=
  t.checkedCount = 0 ↔ t.checkedSet.isEmpty = true

theorem countAgrees_iff (hc : t.Consistent) : t.CountAgrees ↔
    ((∃ l, t.hierarchy.IsLeaf l ∧ t.isMarked l = true ∧
        ∃ i, t.hierarchy.fileId i ≠ none ∧ t.hierarchy.Below l i) ↔
      ∃ l, t.hierarchy.IsLeaf l ∧ t.isMarked l = true ∧ t.hierarchy.isMainRoot l = false) := by
  rw [← checkedCount_ne_zero_iff hc, ← isEmpty_checkedSet_eq_false_iff hc.wellFormed, CountAgrees,
    ← Bool.not_eq_true, not_iff_not]

theorem countAgrees_of_counted (hc : t.Consistent) (hcounted : t.hierarchy.Counted) :
    t.CountAgrees := by
  rw [countAgrees_iff hc]
  exact exists_congr fun l => and_congr_right fun hl => and_congr_right fun _ => hcounted l hl

/-- Any childless node is the only marked one after some operations. -/
theorem exists_onlyBelow_leaf (hc : t.Consistent) (hl : t.hierarchy.IsLeaf l) :
    ∃ ops, (t.run ops).OnlyBelow l := by
  cases hmain : t.hierarchy.isMainRoot l with
  | true => exact exists_onlyBelow_mainRoot hc hmain
  | false => exact ⟨_, onlyBelow_run_check hc hl.1 hmain⟩

/-- Where one childless node alone is marked, whether nothing is counted and whether nothing is
asked for is told on this node. -/
theorem OnlyBelow.countAgrees_iff (ho : t.OnlyBelow l) (hc : t.Consistent)
    (hl : t.hierarchy.IsLeaf l) : t.CountAgrees ↔
      ((∃ i, t.hierarchy.fileId i ≠ none ∧ t.hierarchy.Below l i) ↔
        t.hierarchy.isMainRoot l = false) := by
  have hmark : ∀ P : Nat → Prop,
      (∃ k, t.hierarchy.IsLeaf k ∧ t.isMarked k = true ∧ P k) ↔ P l := fun P => by
    constructor
    · rintro ⟨k, hk, hkmark, hP⟩
      rwa [← hc.wellFormed.eq_of_below_leaf hl ((ho k hk).mp hkmark)]
    · exact fun hP => ⟨l, hl, (ho l hl).mpr below_refl, hP⟩
  rw [SelectionTree.countAgrees_iff hc, hmark, hmark]

/-- **When the count tells about the request**: after all operations on the tree of a listing no
checked file is counted exactly if the request is empty, if the listing is counted, and for no other
listing. -/
theorem countAgrees_run_iff {entries : List Entry} (hb : build entries = .ok t) :
    (∀ ops, (t.run ops).CountAgrees) ↔ t.hierarchy.Counted := by
  have hc := consistent_build hb
  constructor
  · intro hall l hl
    obtain ⟨ops, ho⟩ := exists_onlyBelow_leaf hc hl
    rw [← hierarchy_run t ops] at hl
    have hagrees := (ho.countAgrees_iff (hc.run ops) hl).mp (hall ops)
    rwa [hierarchy_run] at hagrees
  · intro hcounted ops
    refine countAgrees_of_counted (hc.run ops) ?_
    rwa [hierarchy_run]

end SelectionTree

end InstallerBrowser
