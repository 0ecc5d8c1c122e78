import InstallerBrowser.Proofs.Tree.Forest
import InstallerBrowser.Tree.Selection

/-!
# InstallerBrowser.Proofs.Tree.State

What the state of a node says about the marks below it.

`stateOf` asks the childless nodes at or below a node: `stateOf_eq_checked_iff` and
`stateOf_eq_unchecked_iff` say what it asks, `stateOf_eq_combine` that it follows from the states
of the children alone.  The table fills in the same states from the childless nodes upwards
(`getD_allStates`).
-/

namespace InstallerBrowser

theorem getD_setIfInBounds (xs : Array α) (i j : Nat) (x y : α) :
    (xs.setIfInBounds i x).getD j y = if i = j ∧ i < xs.size then x else xs.getD j y := by
  rw [Array.getD_eq_getD_getElem?, Array.getElem?_setIfInBounds, Array.getD_eq_getD_getElem?]
  by_cases hij : i = j
  · subst hij
    by_cases hi : i < xs.size
    · rw [if_pos rfl, if_pos hi, if_pos ⟨rfl, hi⟩, Option.getD_some]
    · rw [if_pos rfl, if_neg hi, if_neg fun h => hi h.2,
        Array.getElem?_eq_none (Nat.le_of_not_lt hi)]
  · rw [if_neg hij, if_neg fun h => hij h.1]

namespace SelectionTree

open Hierarchy

variable {t : SelectionTree} {i l : Nat}

/-! ## The state of one node -/

/-- The walk behind a state ends at the childless nodes at or below its node. -/
theorem mem_leaves_iff (hw : t.hierarchy.WellFormed) (hi : i < t.size) :
    l ∈ (t.hierarchy.subtree i).filter (fun j => (t.hierarchy.children j).isEmpty) ↔
      t.hierarchy.IsLeaf l ∧ t.hierarchy.Below l i := by
  rw [List.mem_filter, hw.mem_subtree_iff hi, List.isEmpty_iff, and_comm]
  constructor
  · exact fun ⟨hnil, hbelow⟩ => ⟨⟨lt_size_of_below hbelow hi, hnil⟩, hbelow⟩
  · exact fun ⟨hleaf, hbelow⟩ => ⟨hleaf.2, hbelow⟩

/-- The state of a node, said on the childless nodes at or below it. -/
theorem stateOf_cases (hw : t.hierarchy.WellFormed) (hi : i < t.size) :
    (t.stateOf i = .checked ∧
        ∀ l, t.hierarchy.IsLeaf l → t.hierarchy.Below l i → t.isMarked l = true) ∨
      (t.stateOf i = .unchecked ∧
        ∀ l, t.hierarchy.IsLeaf l → t.hierarchy.Below l i → t.isMarked l = false) ∨
      (t.stateOf i = .partly ∧
        (∃ l, t.hierarchy.IsLeaf l ∧ t.hierarchy.Below l i ∧ t.isMarked l = true) ∧
        ∃ l, t.hierarchy.IsLeaf l ∧ t.hierarchy.Below l i ∧ t.isMarked l = false) := by
  rw [stateOf]
  obtain ⟨leaves, hleaves⟩ : ∃ leaves,
      (t.hierarchy.subtree i).filter (fun j => (t.hierarchy.children j).isEmpty) = leaves := ⟨_, rfl⟩
  have hmem : ∀ {l}, l ∈ leaves ↔ t.hierarchy.IsLeaf l ∧ t.hierarchy.Below l i := by
    rw [← hleaves]
    exact mem_leaves_iff hw hi
  rw [hleaves]
  have hex : ∀ b, (∃ l ∈ leaves, t.isMarked l = b) ↔
      ∃ l, t.hierarchy.IsLeaf l ∧ t.hierarchy.Below l i ∧ t.isMarked l = b := fun b => by
    simp only [hmem, and_assoc]
  cases hmarked : leaves.any t.isMarked with
  | true =>
      have hsome := (hex true).mp (List.any_eq_true.mp hmarked)
      cases hunmarked : leaves.any (!t.isMarked ·) with
      | true =>
          refine .inr (.inr ⟨by simp, hsome, (hex false).mp ?_⟩)
          simpa using hunmarked
      | false =>
          refine .inl ⟨by simp, fun l hleaf hbelow => ?_⟩
          have hall := List.any_eq_false.mp hunmarked l (hmem.mpr ⟨hleaf, hbelow⟩)
          simpa using hall
  | false =>
      have hnone : ∀ l, t.hierarchy.IsLeaf l → t.hierarchy.Below l i → t.isMarked l = false :=
        fun l hleaf hbelow => by
          simpa using List.any_eq_false.mp hmarked l (hmem.mpr ⟨hleaf, hbelow⟩)
      -- a node has a childless one at or below it, so one of them is not marked
      obtain ⟨l, hleaf, hbelow⟩ := hw.exists_leaf_below hi
      have hunmarked : leaves.any (!t.isMarked ·) = true :=
        List.any_eq_true.mpr ⟨l, hmem.mpr ⟨hleaf, hbelow⟩, by rw [hnone l hleaf hbelow]; rfl⟩
      exact .inr (.inl ⟨by simp [hunmarked], hnone⟩)

/-- A node is checked or unchecked as a whole if the childless nodes at or below it agree. -/
theorem stateOf_eq_ofMark_iff (hw : t.hierarchy.WellFormed) (hi : i < t.size) (mark : Bool) :
    t.stateOf i = CheckState.ofMark mark ↔
      ∀ l, t.hierarchy.IsLeaf l → t.hierarchy.Below l i → t.isMarked l = mark := by
  obtain ⟨l, hleaf, hbelow⟩ := hw.exists_leaf_below hi
  rcases stateOf_cases hw hi with
    ⟨heq, hall⟩ | ⟨heq, hnone⟩ | ⟨heq, ⟨k, hk, hki, hset⟩, m, hm, hmi, hclear⟩
  · cases mark with
    | true => exact iff_of_true heq hall
    | false =>
        refine iff_of_false (by rw [heq]; decide) fun h => ?_
        exact Bool.noConfusion ((hall l hleaf hbelow).symm.trans (h l hleaf hbelow))
  · cases mark with
    | true =>
        refine iff_of_false (by rw [heq]; decide) fun h => ?_
        exact Bool.noConfusion ((h l hleaf hbelow).symm.trans (hnone l hleaf hbelow))
    | false => exact iff_of_true heq hnone
  · refine iff_of_false (by rw [heq]; cases mark <;> decide) fun h => ?_
    have hset' := (h k hk hki).symm.trans hset
    have hclear' := (h m hm hmi).symm.trans hclear
    exact Bool.noConfusion (hset'.symm.trans hclear')

theorem stateOf_eq_checked_iff (hw : t.hierarchy.WellFormed) (hi : i < t.size) :
    t.stateOf i = .checked ↔
      ∀ l, t.hierarchy.IsLeaf l → t.hierarchy.Below l i → t.isMarked l = true :=
  stateOf_eq_ofMark_iff hw hi true

theorem stateOf_eq_unchecked_iff (hw : t.hierarchy.WellFormed) (hi : i < t.size) :
    t.stateOf i = .unchecked ↔
      ∀ l, t.hierarchy.IsLeaf l → t.hierarchy.Below l i → t.isMarked l = false :=
  stateOf_eq_ofMark_iff hw hi false

theorem stateOf_ne_unchecked_iff (hw : t.hierarchy.WellFormed) (hi : i < t.size) :
    t.stateOf i ≠ .unchecked ↔
      ∃ l, t.hierarchy.IsLeaf l ∧ t.hierarchy.Below l i ∧ t.isMarked l = true := by
  rw [Ne, stateOf_eq_unchecked_iff hw hi]
  simp

/-- A childless node is checked or not by its own mark. -/
theorem stateOf_leaf (hw : t.hierarchy.WellFormed) (hl : t.hierarchy.IsLeaf l) :
    t.stateOf l = CheckState.ofMark (t.isMarked l) :=
  (stateOf_eq_ofMark_iff hw hl.1 _).mpr fun j _ hj => by rw [hw.eq_of_below_leaf hl hj]

/-- What is below a checked node is checked. -/
theorem stateOf_eq_checked_of_below (hw : t.hierarchy.WellFormed) (hi : i < t.size)
    (hchecked : t.stateOf i = .checked) (hji : t.hierarchy.Below j i) :
    t.stateOf j = .checked := by
  refine (stateOf_eq_checked_iff hw (lt_size_of_below hji hi)).mpr fun l hleaf hlj => ?_
  exact (stateOf_eq_checked_iff hw hi).mp hchecked l hleaf (hlj.trans hji)

/-- What is above a checked node is not unchecked. -/
theorem stateOf_ne_unchecked_of_above (hw : t.hierarchy.WellFormed) (hj : j < t.size)
    (hchecked : t.stateOf j = .checked) (hji : t.hierarchy.Below j i) :
    t.stateOf i ≠ .unchecked := by
  obtain ⟨l, hleaf, hlj⟩ := hw.exists_leaf_below hj
  refine (stateOf_ne_unchecked_iff hw (hw.below_lt_size hji hj)).mpr ⟨l, hleaf, hlj.trans hji, ?_⟩
  exact (stateOf_eq_checked_iff hw hj).mp hchecked l hleaf hlj

/-! ## The state from the children -/

/-- Of a node with children, the childless nodes below it are those at or below the children. -/
theorem leaf_below_iff_child (hw : t.hierarchy.WellFormed) (hi : ¬ t.hierarchy.IsLeaf i)
    (hl : t.hierarchy.IsLeaf l) :
    t.hierarchy.Below l i ↔ ∃ c ∈ t.hierarchy.children i, t.hierarchy.Below l c := by
  rw [← hw.properlyBelow_iff_child, below_iff]
  constructor
  · rintro (rfl | hproper)
    · exact absurd hl hi
    · exact hproper
  · exact .inr

/-- A node with children follows the three-state rule. -/
theorem stateOf_eq_combine (hw : t.hierarchy.WellFormed) (hi : i < t.size)
    (hchildren : t.hierarchy.children i ≠ []) :
    t.stateOf i = CheckState.combine ((t.hierarchy.children i).map t.stateOf) := by
  have hnot : ¬ t.hierarchy.IsLeaf i := fun hleaf => hchildren hleaf.2
  have hsize : ∀ c ∈ t.hierarchy.children i, c < t.size := fun c hc =>
    hw.lt_size_of_mem_children hc
  have hwhole : ∀ mark, t.stateOf i = CheckState.ofMark mark ↔
      ∀ c ∈ t.hierarchy.children i, t.stateOf c = CheckState.ofMark mark := by
    intro mark
    rw [stateOf_eq_ofMark_iff hw hi]
    constructor
    · intro hall c hc
      refine (stateOf_eq_ofMark_iff hw (hsize c hc) mark).mpr fun l hleaf hlc => ?_
      exact hall l hleaf ((leaf_below_iff_child hw hnot hleaf).mpr ⟨c, hc, hlc⟩)
    · intro hall l hleaf hli
      obtain ⟨c, hc, hlc⟩ := (leaf_below_iff_child hw hnot hleaf).mp hli
      exact (stateOf_eq_ofMark_iff hw (hsize c hc) mark).mp (hall c hc) l hleaf hlc
  have hall : ∀ s : CheckState, ((t.hierarchy.children i).map t.stateOf).all (· == s) = true ↔
      ∀ c ∈ t.hierarchy.children i, t.stateOf c = s := fun s => by
    simp [List.all_eq_true]
  rw [CheckState.combine]
  split
  · next h => exact (hwhole true).mpr ((hall .checked).mp h)
  · next hnotChecked =>
      split
      · next h => exact (hwhole false).mpr ((hall .unchecked).mp h)
      · next hnotUnchecked =>
          cases hstate : t.stateOf i with
          | checked => exact absurd ((hall .checked).mpr ((hwhole true).mp hstate)) hnotChecked
          | unchecked =>
              exact absurd ((hall .unchecked).mpr ((hwhole false).mp hstate)) hnotUnchecked
          | partly => rfl

/-! ## The table of states -/

@[simp] theorem size_fillState (states : Array CheckState) :
    (t.fillState states i).size = states.size := by
  rw [fillState, Array.size_setIfInBounds]

/-- One step of the table is right once the table is right for the children. -/
theorem getD_fillState_self (hw : t.hierarchy.WellFormed) {states : Array CheckState}
    (hsize : states.size = t.size) (hi : i < t.size)
    (hstates : ∀ c ∈ t.hierarchy.children i, states.getD c .unchecked = t.stateOf c) :
    (t.fillState states i).getD i .unchecked = t.stateOf i := by
  rw [fillState, getD_setIfInBounds, if_pos ⟨rfl, hsize.symm ▸ hi⟩, List.map_congr_left hstates]
  split
  · next hnil => exact (stateOf_leaf hw ⟨hi, List.isEmpty_iff.mp hnil⟩).symm
  · next hne => exact (stateOf_eq_combine hw hi fun hnil => hne (List.isEmpty_iff.mpr hnil)).symm

/-- The order puts the children of a node behind it. -/
theorem mem_rest_of_child (hw : t.hierarchy.WellFormed)
    (hsplit : t.hierarchy.order = before ++ i :: rest) (hc : c ∈ t.hierarchy.children i) :
    c ∈ rest := by
  have hdepth := hw.depth_of_parent (hw.mem_children.mp hc)
  have hmem := hw.mem_order (hw.lt_size_of_mem_children hc)
  have hsorted := hw.order_sorted
  rw [hsplit, List.mem_append, List.mem_cons] at hmem
  rw [hsplit, List.pairwise_append] at hsorted
  rcases hmem with hbefore | rfl | hrest
  · have hle := hsorted.2.2 c hbefore i List.mem_cons_self
    omega
  · omega
  · exact hrest

/-- The table holds the state of every node. -/
theorem getD_allStates (hw : t.hierarchy.WellFormed) (hi : i < t.size) :
    t.allStates.getD i .unchecked = t.stateOf i := by
  -- read from its end, the order has the nodes of each of its tails filled in behind it
  have hfill : ∀ rest before, t.hierarchy.order = before ++ rest →
      (rest.reverse.foldl t.fillState (Array.replicate t.size .unchecked)).size = t.size ∧
      ∀ j ∈ rest, j < t.size →
        (rest.reverse.foldl t.fillState (Array.replicate t.size .unchecked)).getD j .unchecked =
          t.stateOf j := by
    intro rest
    induction rest with
    | nil => exact fun _ _ => ⟨Array.size_replicate, fun j hj => by cases hj⟩
    | cons i rest ih =>
        intro before hsplit
        obtain ⟨hsize, hstates⟩ := ih (before ++ [i]) (by rw [hsplit, List.append_assoc]; rfl)
        rw [List.reverse_cons, List.foldl_append, List.foldl_cons, List.foldl_nil]
        refine ⟨by rw [size_fillState, hsize], fun j hj hlt => ?_⟩
        by_cases hij : i = j
        · subst hij
          refine getD_fillState_self hw hsize hlt fun c hc => ?_
          exact hstates c (mem_rest_of_child hw hsplit hc) (hw.lt_size_of_mem_children hc)
        · rw [fillState, getD_setIfInBounds, if_neg fun h => hij h.1]
          exact hstates j ((List.mem_cons.mp hj).resolve_left fun h => hij h.symm) hlt
  exact (hfill t.hierarchy.order [] rfl).2 i (hw.mem_order hi) hi

end SelectionTree

end InstallerBrowser
