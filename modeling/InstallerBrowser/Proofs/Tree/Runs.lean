import InstallerBrowser.Proofs.Tree.Marks

/-!
# InstallerBrowser.Proofs.Tree.Runs

What an operation on a tree can do, and what holds along every run.

`NodeWrite` lists the four outcomes of checking or unchecking one node.  A `Write` is such an
outcome or sets all marks (`step_write_cases`), and any operation is a write or leaves the marks
alone (`step_cases`).  `Consistent` is what every operation keeps; `isMarked_run_iff` reads it off
for a whole run from a built tree.
-/

namespace InstallerBrowser

namespace SelectionTree

open Hierarchy

variable {t : SelectionTree} {i j l : Nat} {mark : Bool}

/-! ## One write -/

/-- The tree after a write to the subtree of a node, with the walk upwards. -/
def writeBelow (t : SelectionTree) (i : Nat) (mark : Bool) : SelectionTree :=
  let marks := setMarks t.checked (t.hierarchy.subtree i) mark
  { t with checked := settle t.hierarchy mark marks (t.hierarchy.ancestors i) }

/-- The outcomes of checking (`mark`) or unchecking (`!mark`) a node. -/
inductive NodeWrite (t : SelectionTree) (i : Nat) (mark : Bool) : SelectionTree × Bool → Prop
  | allKept : t.hierarchy.isMainRoot i = true → (∀ j < t.checked.size, t.isMarked j = mark) →
      NodeWrite t i mark (t, false)
  | all : t.hierarchy.isMainRoot i = true → (∃ j < t.checked.size, t.isMarked j ≠ mark) →
      NodeWrite t i mark (t.markAll mark, true)
  | kept : t.hierarchy.isMainRoot i = false → t.stateOf i = CheckState.ofMark mark →
      NodeWrite t i mark (t, false)
  | below : t.hierarchy.isMainRoot i = false → t.stateOf i ≠ CheckState.ofMark mark →
      NodeWrite t i mark (t.writeBelow i mark, true)

theorem isMarked_eq_getElem (hj : j < t.checked.size) : t.isMarked j = t.checked[j] := by
  rw [isMarked, markIn, Array.getD_eq_getD_getElem?, Array.getElem?_eq_getElem hj, Option.getD_some]

/-- At the main root all marks decide. -/
theorem nodeWrite_mainRoot (hmain : t.hierarchy.isMainRoot i = true) {p : Bool → Bool}
    (hp : ∀ b, p b = true ↔ b = mark) :
    NodeWrite t i mark (if t.checked.all p then (t, false) else (t.markAll mark, true)) := by
  split
  · next hall =>
      refine .allKept hmain fun j hj => ?_
      rw [isMarked_eq_getElem hj]
      exact (hp _).mp (Array.all_eq_true.mp hall j hj)
  · next hnot =>
      refine .all hmain ?_
      rw [Array.all_eq_true] at hnot
      push Not at hnot
      obtain ⟨j, hj, hne⟩ := hnot
      exact ⟨j, hj, by rwa [isMarked_eq_getElem hj, Ne, ← hp]⟩

theorem nodeWrite_checkNode (t : SelectionTree) (i : Nat) : NodeWrite t i true (t.checkNode i) := by
  rw [checkNode]
  split
  · next hmain => exact nodeWrite_mainRoot hmain fun b => by rw [id]
  · next hmain =>
      rw [Bool.not_eq_true] at hmain
      split
      · next hstate => exact .kept hmain hstate
      · next hstate => exact .below hmain (show t.stateOf i ≠ CheckState.ofMark true from hstate)

theorem nodeWrite_uncheckNode (t : SelectionTree) (i : Nat) :
    NodeWrite t i false (t.uncheckNode i) := by
  rw [uncheckNode]
  split
  · next hmain => exact nodeWrite_mainRoot hmain fun b => by rw [Bool.not_eq_true']
  · next hmain =>
      rw [Bool.not_eq_true] at hmain
      split
      · next hstate => exact .kept hmain hstate
      · next hstate => exact .below hmain (show t.stateOf i ≠ CheckState.ofMark false from hstate)

/-! ## One operation -/

/-- Checking (`mark`) or unchecking (`!mark`) the node with a key, or without a key all nodes. -/
structure Write where
  mark : Bool
  target : Option NodeKey

/-- The operation that a write stands for. -/
def Write.operation : Write → Operation
  | ⟨true, some key⟩ => .check key
  | ⟨false, some key⟩ => .uncheck key
  | ⟨true, none⟩ => .checkAll
  | ⟨false, none⟩ => .uncheckAll

/-- A write without a key sets all marks; one with a key is a write at its node, if there is one. -/
theorem step_write_cases (t : SelectionTree) (w : Write) :
    (w.target = none ∧ t.step w.operation = t.markAll w.mark) ∨
      (∃ key, w.target = some key ∧
        ((t.hierarchy.indexOf? key = none ∧ t.step w.operation = t) ∨
          ∃ i result, t.hierarchy.indexOf? key = some i ∧ NodeWrite t i w.mark result ∧
            t.step w.operation = result.1)) := by
  obtain ⟨mark, target⟩ := w
  cases target with
  | none => cases mark <;> exact .inl ⟨rfl, rfl⟩
  | some key =>
      refine .inr ⟨key, rfl, ?_⟩
      cases hkey : t.hierarchy.indexOf? key with
      | none =>
          refine .inl ⟨rfl, ?_⟩
          cases mark with
          | true => rw [Write.operation, step, check, hkey]
          | false => rw [Write.operation, step, uncheck, hkey]
      | some i =>
          cases mark with
          | true =>
              refine .inr ⟨i, _, rfl, nodeWrite_checkNode t i, ?_⟩
              rw [Write.operation, step, check, hkey]
          | false =>
              refine .inr ⟨i, _, rfl, nodeWrite_uncheckNode t i, ?_⟩
              rw [Write.operation, step, uncheck, hkey]

/-- An operation is a write, or leaves the marks alone. -/
theorem step_cases (t : SelectionTree) (op : Operation) :
    (∃ w : Write, t.step op = t.step w.operation) ∨
      ((t.step op).hierarchy = t.hierarchy ∧ (t.step op).checked = t.checked) := by
  have hopen : ∀ key mark, (t.setOpen key mark).hierarchy = t.hierarchy ∧
      (t.setOpen key mark).checked = t.checked := by
    intro key mark
    rw [setOpen]
    split <;> exact ⟨rfl, rfl⟩
  cases op with
  | check key => exact .inl ⟨⟨true, some key⟩, rfl⟩
  | uncheck key => exact .inl ⟨⟨false, some key⟩, rfl⟩
  | toggle key =>
      rw [step, toggle]
      split
      · exact .inl ⟨⟨false, some key⟩, rfl⟩
      · exact .inl ⟨⟨true, some key⟩, rfl⟩
      · exact .inr ⟨rfl, rfl⟩
  | checkAll => exact .inl ⟨⟨true, none⟩, rfl⟩
  | uncheckAll => exact .inl ⟨⟨false, none⟩, rfl⟩
  | expand key => exact .inr (hopen key true)
  | collapse key => exact .inr (hopen key false)
  | toggleExpanded key => exact .inr (hopen key _)

theorem NodeWrite.hierarchy_eq {result : SelectionTree × Bool} (h : NodeWrite t i mark result) :
    result.1.hierarchy = t.hierarchy := by
  cases h <;> rfl

/-- No operation changes the tree below the marks. -/
@[simp] theorem hierarchy_step (t : SelectionTree) (op : Operation) :
    (t.step op).hierarchy = t.hierarchy := by
  rcases step_cases t op with ⟨w, heq⟩ | ⟨heq, _⟩
  · rw [heq]
    rcases step_write_cases t w with
      ⟨_, hall⟩ | ⟨_, _, ⟨_, hsame⟩ | ⟨i, result, _, hwrite, hresult⟩⟩
    · rw [hall]
      rfl
    · rw [hsame]
    · rw [hresult, hwrite.hierarchy_eq]
  · exact heq

@[simp] theorem hierarchy_run (t : SelectionTree) (ops : List Operation) :
    (t.run ops).hierarchy = t.hierarchy := by
  induction ops generalizing t with
  | nil => rfl
  | cons op ops ih => exact (ih (t.step op)).trans (hierarchy_step t op)

/-! ## What every operation keeps -/

/-- A forest with a mark for each node, in which every node keeps the rule. -/
structure Consistent (t : SelectionTree) : Prop where
  wellFormed : t.hierarchy.WellFormed
  size_checked : t.checked.size = t.size
  agrees : ∀ i, Agrees t.hierarchy t.checked i

/-- Under the rule, a node is marked exactly if a childless node at or below it is. -/
theorem Consistent.isMarked_iff (hc : t.Consistent) (hi : i < t.size) :
    t.isMarked i = true ↔ t.stateOf i ≠ .unchecked := by
  have hw := hc.wellFormed
  induction i using hw.induction_children with
  | step i ih =>
      by_cases hleaf : t.hierarchy.IsLeaf i
      · rw [stateOf_leaf hw hleaf]
        cases t.isMarked i <;> decide
      · have hne : t.hierarchy.children i ≠ [] := fun hnil => hleaf ⟨hi, hnil⟩
        rw [isMarked, hc.agrees i hne, List.any_eq_true, stateOf_ne_unchecked_iff hw hi]
        constructor
        · rintro ⟨c, hchild, hmark⟩
          have hcsize := hw.lt_size_of_mem_children hchild
          obtain ⟨l, hl, hlc, hlmark⟩ :=
            (stateOf_ne_unchecked_iff hw hcsize).mp ((ih c hchild hcsize).mp hmark)
          exact ⟨l, hl, (leaf_below_iff_child hw hleaf hl).mpr ⟨c, hchild, hlc⟩, hlmark⟩
        · rintro ⟨l, hl, hli, hlmark⟩
          obtain ⟨c, hchild, hlc⟩ := (leaf_below_iff_child hw hleaf hl).mp hli
          have hcsize := hw.lt_size_of_mem_children hchild
          refine ⟨c, hchild, (ih c hchild hcsize).mpr ?_⟩
          exact (stateOf_ne_unchecked_iff hw hcsize).mpr ⟨l, hl, hlc, hlmark⟩

/-- What is above a marked node is marked. -/
theorem Consistent.isMarked_of_above (hc : t.Consistent) (hi : i < t.size)
    (hmark : t.isMarked i = true) (hij : t.hierarchy.Below i j) : t.isMarked j = true := by
  have hw := hc.wellFormed
  obtain ⟨l, hl, hli, hlmark⟩ := (stateOf_ne_unchecked_iff hw hi).mp ((hc.isMarked_iff hi).mp hmark)
  have hj := hw.below_lt_size hij hi
  exact (hc.isMarked_iff hj).mpr ((stateOf_ne_unchecked_iff hw hj).mpr ⟨l, hl, hli.trans hij, hlmark⟩)

theorem markIn_markAll (hi : i < t.checked.size) : (t.markAll mark).isMarked i = mark := by
  rw [isMarked_eq_getElem (by rwa [markAll, Array.size_map])]
  exact Array.getElem_map ..

theorem consistent_markAll (hc : t.Consistent) : (t.markAll mark).Consistent where
  wellFormed := hc.wellFormed
  size_checked := by rw [markAll, Array.size_map, hc.size_checked]; rfl
  agrees := by
    intro i hne
    have hw := hc.wellFormed
    have hsize : ∀ j < t.size, (t.markAll mark).isMarked j = mark := fun j hj =>
      markIn_markAll (hc.size_checked ▸ hj)
    obtain ⟨c, hchild⟩ := List.exists_mem_of_ne_nil _ hne
    have hi := hw.parent_lt_size (hw.mem_children.mp hchild)
    exact agrees_of_same (hsize i hi) (fun c hc => hsize c (hw.lt_size_of_mem_children hc)) hne

theorem consistent_writeBelow (hc : t.Consistent) (hi : i < t.size)
    (hstate : t.stateOf i ≠ CheckState.ofMark mark) : (t.writeBelow i mark).Consistent := by
  have hw := hc.wellFormed
  have hsize : (setMarks t.checked (t.hierarchy.subtree i) mark).size = t.hierarchy.size := by
    rw [size_setMarks, hc.size_checked]
    rfl
  have hexcept : ∀ j, t.hierarchy.parent i ≠ some j → Agrees t.hierarchy
      (setMarks t.checked (t.hierarchy.subtree i) mark) j := fun j hj =>
    agrees_setMarks hw hi hc.size_checked hc.agrees hj
  have hset := markIn_setMarks_subtree hw hi hc.size_checked mark
  have hself := hset i
  rw [if_pos ((hw.mem_subtree_iff hi).mpr below_refl)] at hself
  refine { wellFormed := hw, size_checked := (size_settle _).trans hsize, agrees := ?_ }
  cases mark with
  | true => exact agrees_markUp hw hsize hexcept hself
  | false =>
      refine agrees_clearUp hw hsize hexcept hself fun a ha => ?_
      -- the nodes above `i` were marked because `i` was, and the subtree of `i` is not above it
      have hnot : a ∉ t.hierarchy.subtree i := fun hmem =>
        hw.not_properlyBelow_self (Relation.TransGen.trans_left ha ((hw.mem_subtree_iff hi).mp hmem))
      rw [hset, if_neg hnot]
      exact hc.isMarked_of_above hi ((hc.isMarked_iff hi).mpr hstate) ha.below

theorem NodeWrite.consistent {result : SelectionTree × Bool} (hwrite : NodeWrite t i mark result)
    (hc : t.Consistent) (hi : i < t.size) : result.1.Consistent := by
  cases hwrite with
  | allKept _ _ => exact hc
  | all _ _ => exact consistent_markAll hc
  | kept _ _ => exact hc
  | below _ hstate => exact consistent_writeBelow hc hi hstate

theorem consistent_step (hc : t.Consistent) (op : Operation) : (t.step op).Consistent := by
  rcases step_cases t op with ⟨w, heq⟩ | ⟨hh, hmarks⟩
  · rw [heq]
    rcases step_write_cases t w with
      ⟨_, hall⟩ | ⟨_, _, ⟨_, hsame⟩ | ⟨i, result, hkey, hwrite, hresult⟩⟩
    · rw [hall]
      exact consistent_markAll hc
    · rwa [hsame]
    · rw [hresult]
      exact hwrite.consistent hc (lt_size_of_indexOf? hkey)
  · refine ⟨?_, ?_, ?_⟩
    · rw [hh]
      exact hc.wellFormed
    · rw [hmarks, hc.size_checked, size, size, hh]
    · rw [hh, hmarks]
      exact hc.agrees

/-- Everything is marked at first. -/
theorem isMarked_ofHierarchy {h : Hierarchy} (hi : i < h.size) :
    (ofHierarchy h).isMarked i = true := by
  rw [isMarked, markIn, ofHierarchy, Array.getD_eq_getD_getElem?, Array.getElem?_replicate,
    if_pos hi, Option.getD_some]

theorem consistent_ofHierarchy {h : Hierarchy} (hw : h.WellFormed) :
    (ofHierarchy h).Consistent where
  wellFormed := hw
  size_checked := Array.size_replicate
  agrees := by
    intro i hne
    obtain ⟨c, hchild⟩ := List.exists_mem_of_ne_nil _ hne
    have hi := hw.parent_lt_size (hw.mem_children.mp hchild)
    exact agrees_of_same (isMarked_ofHierarchy hi)
      (fun c hc => isMarked_ofHierarchy (hw.lt_size_of_mem_children hc)) hne

theorem build_eq_ok {entries : List Entry} (hb : build entries = .ok t) :
    ∃ h, Hierarchy.build entries = .ok h ∧ t = ofHierarchy h := by
  rw [build] at hb
  cases hh : Hierarchy.build entries with
  | error fault => rw [hh] at hb; cases hb
  | ok h =>
      rw [hh] at hb
      cases hb
      exact ⟨h, rfl, rfl⟩

theorem consistent_build {entries : List Entry} (hb : build entries = .ok t) : t.Consistent := by
  obtain ⟨h, hh, rfl⟩ := build_eq_ok hb
  exact consistent_ofHierarchy (wellFormed_of_build hh)

theorem Consistent.run (hc : t.Consistent) (ops : List Operation) : (t.run ops).Consistent := by
  induction ops generalizing t with
  | nil => exact hc
  | cons op ops ih => exact ih (consistent_step hc op)

theorem consistent_run {entries : List Entry} (hb : build entries = .ok t)
    (ops : List Operation) : (t.run ops).Consistent := (consistent_build hb).run ops

/-! ## The marks of a run -/

/-- **The marks tell the states**: after any operations on the tree of a listing, a node is marked
exactly if its state is not unchecked, and one with children exactly if one of them is marked. -/
theorem isMarked_run_iff {entries : List Entry} (hb : build entries = .ok t)
    (ops : List Operation) (hi : i < t.size) :
    ((t.run ops).isMarked i = true ↔ (t.run ops).stateOf i ≠ .unchecked) ∧
      (t.hierarchy.children i ≠ [] →
        (t.run ops).isMarked i = (t.hierarchy.children i).any (t.run ops).isMarked) := by
  have hc := consistent_run hb ops
  have hsize : i < (t.run ops).size := by rwa [size, hierarchy_run]
  have hagrees := hc.agrees i
  rw [hierarchy_run] at hagrees
  exact ⟨hc.isMarked_iff hsize, hagrees⟩

/-- A listing with a main root, a second root, and files below both. -/
def twoRootListing : List Entry :=
  [ { node := 0, name := "Setup", isMainRoot := true }
  , { node := 1, name := "app", parentId := some 0 }
  , { node := 2, name := "a.exe", fileId := some 10, parentId := some 1 }
  , { node := 3, name := "b.dll", fileId := some 11, parentId := some 1 }
  , { node := 4, name := "extras" }
  , { node := 5, name := "bonus.pdf", fileId := some 20, parentId := some 4 } ]

/-- Unchecking all, then one file again: its directory is marked, and partly checked. -/
theorem isMarked_run_twoRootListing : ∃ t, build twoRootListing = .ok t ∧ 1 < t.size ∧
    t.hierarchy.children 1 ≠ [] ∧
    (t.run [.uncheck 0, .check 3, .toggle 9, .collapse 1]).isMarked 1 = true ∧
    (t.run [.uncheck 0, .check 3, .toggle 9, .collapse 1]).stateOf 1 ≠ .unchecked ∧
    (t.run [.uncheck 0, .check 3, .toggle 9, .collapse 1]).isMarked 1 =
      (t.hierarchy.children 1).any
        (t.run [.uncheck 0, .check 3, .toggle 9, .collapse 1]).isMarked := by
  obtain ⟨t, hb⟩ : ∃ t, build twoRootListing = .ok t := ⟨_, rfl⟩
  have hsize : 1 < t.size := by cases hb; decide
  have hchildren : t.hierarchy.children 1 ≠ [] := by cases hb; decide +kernel
  have hmark : (t.run [.uncheck 0, .check 3, .toggle 9, .collapse 1]).isMarked 1 = true := by
    cases hb
    decide +kernel
  obtain ⟨hiff, hany⟩ := isMarked_run_iff hb [.uncheck 0, .check 3, .toggle 9, .collapse 1] hsize
  exact ⟨t, hb, hsize, hchildren, hmark, hiff.mp hmark, hany hchildren⟩

end SelectionTree

end InstallerBrowser
