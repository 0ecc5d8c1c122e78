import InstallerBrowser.Proofs.Tree.Cover

/-!
# InstallerBrowser.Proofs.Tree.Derivation

The ways to the state of a node, and that they lead to the same state.

`HasState` is the definition: a childless node has the state of its mark, and any other follows
from its children.  `stateOf` asks the childless nodes at or below the node; `scan` is the same
walk as a loop over a stack, which is over as soon as it knows enough; `allStates` fills in a
table.  `states_agree` says that all four agree on every node, whatever the marks are, so that a
row shows, and a request goes by, the state that is told for the key.
-/

namespace InstallerBrowser

/-- The state of a node, by whether marked and unmarked childless nodes were met. -/
def CheckState.ofMet (marked unmarked : Bool) : CheckState :=
  if marked && unmarked then .partly else if unmarked then .unchecked else .checked

namespace SelectionTree

open Hierarchy

/-! ## The definition -/

/-- The state of a node by the marks of the childless nodes: checked or unchecked if all children
are, and partly checked if neither. -/
inductive HasState (t : SelectionTree) : Nat → CheckState → Prop
  | leaf : t.hierarchy.children i = [] → HasState t i (.ofMark (t.isMarked i))
  | checked : t.hierarchy.children i ≠ [] →
      (∀ c ∈ t.hierarchy.children i, HasState t c .checked) → HasState t i .checked
  | unchecked : t.hierarchy.children i ≠ [] →
      (∀ c ∈ t.hierarchy.children i, HasState t c .unchecked) → HasState t i .unchecked
  | partly {state : Nat → CheckState} :
      (∀ c ∈ t.hierarchy.children i, HasState t c (state c)) →
      (∃ c ∈ t.hierarchy.children i, state c ≠ .checked) →
      (∃ c ∈ t.hierarchy.children i, state c ≠ .unchecked) → HasState t i .partly

variable {t : SelectionTree} {i : Nat} {s : CheckState}

theorem hasState_stateOf (hw : t.hierarchy.WellFormed) (hi : i < t.size) :
    HasState t i (t.stateOf i) := by
  induction i using hw.induction_children with
  | step i ih =>
      have hchildren : ∀ c ∈ t.hierarchy.children i, HasState t c (t.stateOf c) := fun c hc =>
        ih c hc (hw.lt_size_of_mem_children hc)
      by_cases hnil : t.hierarchy.children i = []
      · rw [stateOf_leaf hw ⟨hi, hnil⟩]
        exact .leaf hnil
      · rw [stateOf_eq_combine hw hi hnil, CheckState.combine]
        split
        · next hall =>
            have hchecked : ∀ c ∈ t.hierarchy.children i, t.stateOf c = .checked := by
              simpa using hall
            exact .checked hnil fun c hc => hchecked c hc ▸ hchildren c hc
        · next hchecked =>
            split
            · next hall =>
                have hunchecked : ∀ c ∈ t.hierarchy.children i, t.stateOf c = .unchecked := by
                  simpa using hall
                exact .unchecked hnil fun c hc => hunchecked c hc ▸ hchildren c hc
            · next hunchecked =>
                exact .partly hchildren (by simpa using hchecked) (by simpa using hunchecked)

theorem HasState.eq_stateOf (hw : t.hierarchy.WellFormed) (h : HasState t i s) (hi : i < t.size) :
    s = t.stateOf i := by
  have hsize : ∀ {p c}, c ∈ t.hierarchy.children p → c < t.size := hw.lt_size_of_mem_children
  induction h with
  | leaf hnil => exact (stateOf_leaf hw ⟨hi, hnil⟩).symm
  | checked hne _ ih =>
      rw [stateOf_eq_combine hw hi hne, CheckState.combine, if_pos]
      simpa using fun c hc => (ih c hc (hsize hc)).symm
  | unchecked hne _ ih =>
      obtain ⟨c, hc⟩ := List.exists_mem_of_ne_nil _ hne
      rw [stateOf_eq_combine hw hi hne, CheckState.combine, if_neg, if_pos]
      · simpa using fun c hc => (ih c hc (hsize hc)).symm
      · have hstate := ih c hc (hsize hc)
        simpa using ⟨c, hc, by rw [← hstate]; decide⟩
  | partly _ hchecked hunchecked ih =>
      obtain ⟨c, hc, hnotChecked⟩ := hchecked
      obtain ⟨d, hd, hnotUnchecked⟩ := hunchecked
      rw [ih c hc (hsize hc)] at hnotChecked
      rw [ih d hd (hsize hd)] at hnotUnchecked
      rw [stateOf_eq_combine hw hi (List.ne_nil_of_mem hc), CheckState.combine, if_neg, if_neg]
      · simpa using ⟨d, hd, hnotUnchecked⟩
      · simpa using ⟨c, hc, hnotChecked⟩

/-! ## The loop -/

/-- The walk behind the state of one node as a loop: the top of a stack is taken off, and the
children of an inner node put in its place, the last on top; as soon as a marked and an unmarked
childless node were met, the walk is over. -/
def scan (t : SelectionTree) : Nat → Bool → Bool → List Nat → Option CheckState
  | _, marked, unmarked, [] => some (.ofMet marked unmarked)
  | 0, _, _, _ :: _ => none
  | bound + 1, marked, unmarked, i :: stack =>
    if (t.hierarchy.children i).isEmpty then
      let marked := marked || t.isMarked i
      let unmarked := unmarked || !t.isMarked i
      if marked && unmarked then some .partly else t.scan bound marked unmarked stack
    else t.scan bound marked unmarked ((t.hierarchy.children i).reverse ++ stack)

/-- The childless nodes among some. -/
def leavesOf (t : SelectionTree) (nodes : List Nat) : List Nat :=
  nodes.filter fun j => (t.hierarchy.children j).isEmpty

/-- The loop tells what the whole walk meets, though it may be over before the walk is. -/
theorem scan_eq_of_visits {stack taken : List Nat} {bound : Nat} {marked unmarked : Bool}
    (h : Visits (fun j => (t.hierarchy.children j).reverse) stack taken)
    (hbound : taken.length ≤ bound) (hopen : (marked && unmarked) = false) :
    t.scan bound marked unmarked stack =
      some (.ofMet (marked || (t.leavesOf taken).any t.isMarked)
        (unmarked || (t.leavesOf taken).any (!t.isMarked ·))) := by
  induction bound generalizing stack taken marked unmarked with
  | zero =>
      rw [Nat.le_zero, List.length_eq_zero_iff] at hbound
      subst hbound
      cases h
      simp [scan, leavesOf]
  | succ bound ih =>
      cases h with
      | nil => simp [scan, leavesOf]
      | @cons i below _ after hbelow hafter =>
          have hlen := Nat.le_of_succ_le_succ hbound
          rw [scan]
          cases hleaf : (t.hierarchy.children i).isEmpty with
          | true =>
              have hbelowNil : below = [] := by
                rw [List.isEmpty_iff.mp hleaf, List.reverse_nil] at hbelow
                cases hbelow
                rfl
              subst hbelowNil
              have hleaves : t.leavesOf (i :: ([] ++ after)) = i :: t.leavesOf after :=
                List.filter_cons_of_pos hleaf
              rw [hleaves, List.any_cons, List.any_cons, ← Bool.or_assoc, ← Bool.or_assoc, if_pos rfl]
              dsimp only
              split
              · next hmet =>
                  obtain ⟨hmarked, hunmarked⟩ := Bool.and_eq_true_iff.mp hmet
                  rw [hmarked, hunmarked, Bool.true_or, Bool.true_or]
                  rfl
              · next hmet => exact ih hafter hlen (eq_false_of_ne_true hmet)
          | false =>
              have hleaves : t.leavesOf (i :: (below ++ after)) = t.leavesOf (below ++ after) :=
                List.filter_cons_of_neg (by rw [hleaf]; exact Bool.false_ne_true)
              rw [hleaves]
              exact ih (visits_append hbelow hafter) hlen hopen

/-- The loop is over within as many steps as there are nodes, with the state of its node. -/
theorem scan_eq_stateOf (hw : t.hierarchy.WellFormed) (hi : i < t.size) :
    t.scan t.size false false [i] = some (t.stateOf i) := by
  obtain ⟨taken, htaken, hperm⟩ :=
    visits_of_perm_next (fun j => (List.reverse_perm _).symm) (hw.subtree_visits hi).1
  have hlen : taken.length ≤ t.size :=
    hperm.length_eq ▸ length_traverse_le t.hierarchy.children t.hierarchy.size [i]
  have hleaves : (t.leavesOf (t.hierarchy.subtree i)).Perm (t.leavesOf taken) := hperm.filter _
  rw [scan_eq_of_visits htaken hlen rfl, Bool.false_or, Bool.false_or, ← hleaves.any_eq,
    ← hleaves.any_eq]
  rfl

/-! ## The table -/

theorem size_allStates (t : SelectionTree) : t.allStates.size = t.size := by
  have hfill : ∀ (nodes : List Nat) (states : Array CheckState),
      (nodes.foldl t.fillState states).size = states.size := by
    intro nodes
    induction nodes with
    | nil => exact fun _ => rfl
    | cons i nodes ih => exact fun states => (ih _).trans (size_fillState states)
  rw [allStates, hfill, Array.size_replicate]

theorem getElem?_allStates (hw : t.hierarchy.WellFormed) (hi : i < t.size) :
    t.allStates[i]? = some (t.stateOf i) := by
  have hlt : i < t.allStates.size := by rwa [size_allStates]
  have hget := getD_allStates hw hi
  rw [Array.getD_eq_getD_getElem?, Array.getElem?_eq_getElem hlt, Option.getD_some] at hget
  rw [Array.getElem?_eq_getElem hlt, hget]

/-! ## What is shown, and what is asked for -/

/-- A row shows the state that is told for its key. -/
theorem state?_of_mem_visibleRows (hw : t.hierarchy.WellFormed) {row : TreeRow}
    (hrow : row ∈ t.visibleRows) : t.state? row.key = some row.state := by
  obtain ⟨i, _, hi⟩ := List.mem_filterMap.mp hrow
  rw [SelectionTree.row, Option.map_eq_some_iff] at hi
  obtain ⟨node, hnode, rfl⟩ := hi
  have hlt : i < t.size := (Array.getElem?_eq_some_iff.mp hnode).choose
  have hkey : t.hierarchy.key i = node.entry.node := by rw [Hierarchy.key, hnode]
  rw [state?, hw.indexOf?_eq_some_iff.mpr ⟨hlt, hkey⟩, Option.map_some, getD_allStates hw hlt]

/-- The choice in few words, by the states that are told for the keys. -/
def checkedSetBy (t : SelectionTree) (state : NodeKey → Option CheckState) : CheckedSet :=
  let h := t.hierarchy
  let isReported (i : Nat) : Bool := state (h.key i) == some .checked && !h.isMainRoot i
  let next (i : Nat) : List Nat :=
    if state (h.key i) == some .unchecked || isReported i then [] else h.children i
  let reported := (traverse next h.size h.roots).1.filter isReported
  { files := reported.filterMap h.fileId
    dirs := (reported.filter fun i => (h.fileId i).isNone).map h.path }

/-- A request goes by the states that are told for the keys. -/
theorem checkedSet_eq_checkedSetBy (hw : t.hierarchy.WellFormed) :
    t.checkedSet = t.checkedSetBy t.state? := by
  have hstate : ∀ i < t.size, ∀ s, (t.allStates.getD i .unchecked == s) =
      (t.state? (t.hierarchy.key i) == some s) := by
    intro i hi s
    rw [getD_allStates hw hi, state?, hw.indexOf?_eq_some_iff.mpr ⟨hi, rfl⟩, Option.map_some]
    rfl
  have hreported : ∀ i < t.size, t.isReported i =
      (t.state? (t.hierarchy.key i) == some .checked && !t.hierarchy.isMainRoot i) := by
    intro i hi
    rw [isReported, hstate i hi]
  have hnext : ∀ i < t.size, t.nextReported i =
      if t.state? (t.hierarchy.key i) == some .unchecked ||
          (t.state? (t.hierarchy.key i) == some .checked && !t.hierarchy.isMainRoot i) then []
        else t.hierarchy.children i := by
    intro i hi
    rw [nextReported, hstate i hi, hreported i hi]
  have hclosed : ∀ i < t.size, ∀ c ∈ t.nextReported i, c < t.size := by
    intro i _ c hc
    rw [next_eq_of_mem t.nextReported_cases hc] at hc
    exact hw.lt_size_of_mem_children hc
  obtain ⟨heq, hmem⟩ := traverse_congr (P := (· < t.size)) hnext hclosed t.hierarchy.size
    fun r hr => (hw.mem_roots.mp hr).1
  rw [checkedSet_eq, reported, checkedSetBy, List.filter_congr fun i hi => hreported i (hmem i hi),
    heq]

/-! ## All of them -/

/-- **The ways to the state of a node agree**: in the tree of a listing with any marks, the walk
below a node, as it is defined and as a loop within as many steps as there are nodes, the table,
and the definition by the children give the same state.  So the rows show, and requests go by, the
states that are told for their keys. -/
theorem states_agree {entries : List Entry} {built : SelectionTree}
    (hb : build entries = .ok built) (ht : t.hierarchy = built.hierarchy) :
    (∀ i < t.size, t.scan t.size false false [i] = some (t.stateOf i) ∧
        t.allStates[i]? = some (t.stateOf i) ∧ ∀ s, HasState t i s ↔ s = t.stateOf i) ∧
      (∀ row ∈ t.visibleRows, t.state? row.key = some row.state) ∧
      t.checkedSet = t.checkedSetBy t.state? := by
  have hw : t.hierarchy.WellFormed := ht ▸ (consistent_build hb).wellFormed
  refine ⟨fun i hi => ⟨scan_eq_stateOf hw hi, getElem?_allStates hw hi, fun s => ?_⟩,
    fun row hrow => state?_of_mem_visibleRows hw hrow, checkedSet_eq_checkedSetBy hw⟩
  constructor
  · exact fun h => h.eq_stateOf hw hi
  · rintro rfl
    exact hasState_stateOf hw hi

/-- With the marks of one file and of its directory cleared, the directory is partly checked by
all ways. -/
theorem states_agree_twoRootListing : ∃ built t, build twoRootListing = .ok built ∧
    t.hierarchy = built.hierarchy ∧
    t.checked = #[true, false, true, false, true, true] ∧ 1 < t.size ∧
    t.scan t.size false false [1] = some .partly ∧ t.allStates[1]? = some .partly ∧
    HasState t 1 .partly ∧ t.checkedSet = t.checkedSetBy t.state? := by
  obtain ⟨built, hb⟩ : ∃ t, build twoRootListing = .ok t := ⟨_, rfl⟩
  let t := { built with checked := #[true, false, true, false, true, true] }
  obtain ⟨hstates, _, hset⟩ := states_agree (t := t) hb rfl
  have hsize : 1 < t.size := by cases hb; decide +kernel
  have hstate : t.stateOf 1 = .partly := by cases hb; decide +kernel
  obtain ⟨hscan, htable, hhas⟩ := hstates 1 hsize
  rw [hstate] at hscan htable hhas
  exact ⟨built, t, hb, rfl, rfl, hsize, hscan, htable, (hhas .partly).mpr rfl, hset⟩

end SelectionTree

end InstallerBrowser
