import InstallerBrowser.Proofs.Tree.Runs

/-!
# InstallerBrowser.Proofs.Tree.History

What a sequence of writes leaves at a childless node.

A `Write` checks or unchecks the node with a key, or all nodes; `Write.Covers` says which childless
nodes it is about.  One write sets the marks it covers and no other mark of a childless node
(`isMarked_step_of_covers`, `isMarked_step_of_not_covers`), also where it finds nothing to do, so
the last write that covers a node decides its state (`stateOf_run_writes`).
-/

namespace InstallerBrowser

namespace SelectionTree

open Hierarchy

variable {t : SelectionTree} {i l : Nat} {mark : Bool}

/-! ## A write at one node -/

/-- A childless node is above no other node. -/
theorem not_mem_ancestors_of_leaf {h : Hierarchy} (hw : h.WellFormed) (hl : h.IsLeaf l) :
    l ∉ h.ancestors i := fun hmem =>
  hw.children_ne_nil_of_properlyBelow (hw.mem_ancestors_iff.mp hmem) hl.2

/-- A write to a subtree sets the marks of the childless nodes in it, and of no others. -/
theorem isMarked_writeBelow_leaf (hc : t.Consistent) (hi : i < t.size)
    (hl : t.hierarchy.IsLeaf l) (mark : Bool) :
    (t.hierarchy.Below l i → (t.writeBelow i mark).isMarked l = mark) ∧
      (¬ t.hierarchy.Below l i → (t.writeBelow i mark).isMarked l = t.isMarked l) := by
  have hw := hc.wellFormed
  have hmem : l ∈ t.hierarchy.subtree i ↔ t.hierarchy.Below l i := hw.mem_subtree_iff hi
  have hpath : ∀ p ∈ t.hierarchy.ancestors i,
      p < (setMarks t.checked (t.hierarchy.subtree i) mark).size := by
    intro p hp
    rw [size_setMarks, hc.size_checked]
    exact hw.below_lt_size (hw.mem_ancestors_iff.mp hp).below hi
  have hwrite : (t.writeBelow i mark).isMarked l =
      if l ∈ t.hierarchy.subtree i then mark else t.isMarked l :=
    (markIn_settle_of_not_mem hpath (not_mem_ancestors_of_leaf hw hl)).trans
      (markIn_setMarks_subtree hw hi hc.size_checked mark l)
  rw [hwrite]
  exact ⟨fun hbelow => if_pos (hmem.mpr hbelow), fun hnot => if_neg fun h => hnot (hmem.mp h)⟩

/-- Whatever its outcome, a write at the main root sets all marks, and a write at another node
those of the childless nodes at or below it and of no others. -/
theorem NodeWrite.isMarked_leaf {result : SelectionTree × Bool} (hwrite : NodeWrite t i mark result)
    (hc : t.Consistent) (hi : i < t.size) (hl : t.hierarchy.IsLeaf l) :
    (t.hierarchy.isMainRoot i = true ∨ t.hierarchy.Below l i → result.1.isMarked l = mark) ∧
      (t.hierarchy.isMainRoot i = false → ¬ t.hierarchy.Below l i →
        result.1.isMarked l = t.isMarked l) := by
  have hlsize : l < t.checked.size := hc.size_checked.symm ▸ hl.1
  cases hwrite with
  | allKept hmain hall =>
      exact ⟨fun _ => hall l hlsize, fun hnot _ => absurd (hmain.symm.trans hnot) nofun⟩
  | all hmain _ =>
      exact ⟨fun _ => markIn_markAll hlsize, fun hnot _ => absurd (hmain.symm.trans hnot) nofun⟩
  | kept hmain hstate =>
      refine ⟨fun hcover => ?_, fun _ _ => rfl⟩
      have hbelow := hcover.resolve_left (by simp [hmain])
      exact (stateOf_eq_ofMark_iff hc.wellFormed hi mark).mp hstate l hl hbelow
  | below hmain _ =>
      obtain ⟨hin, hout⟩ := isMarked_writeBelow_leaf hc hi hl mark
      exact ⟨fun hcover => hin (hcover.resolve_left (by simp [hmain])),
        fun _ => hout⟩

/-! ## Writes -/

namespace Write

/-- A write covers the nodes at or below the node with its key; at the main root, and without a
key, it covers every node. -/
def Covers (h : Hierarchy) (w : Write) (l : Nat) : Prop :=
  match w.target with
  | some key => ∃ i < h.size, h.key i = key ∧ (h.isMainRoot i = true ∨ h.Below l i)
  | none => True

/-- A write at a node other than the main root covers what is at or below the node. -/
theorem covers_key_iff {h : Hierarchy} (hw : h.WellFormed) (hi : i < h.size)
    (hmain : h.isMainRoot i = false) :
    (Write.mk mark (some (h.key i))).Covers h l ↔ h.Below l i := by
  constructor
  · rintro ⟨j, hj, hkey, hcover⟩
    obtain rfl := hw.key_injective hj hi hkey
    exact hcover.resolve_left (by simp [hmain])
  · exact fun hli => ⟨i, hi, rfl, .inr hli⟩

end Write

theorem isMarked_step_of_covers (hc : t.Consistent) (hl : t.hierarchy.IsLeaf l) (w : Write)
    (hcovers : w.Covers t.hierarchy l) : (t.step w.operation).isMarked l = w.mark := by
  have hw := hc.wellFormed
  unfold Write.Covers at hcovers
  rcases step_write_cases t w with
    ⟨_, hall⟩ | ⟨key, htarget, ⟨hnone, _⟩ | ⟨i, result, hkey, hwrite, hresult⟩⟩
  · rw [hall]
    exact markIn_markAll (hc.size_checked.symm ▸ hl.1)
  · rw [htarget] at hcovers
    obtain ⟨i, hi, hkey, _⟩ := hcovers
    rw [hw.indexOf?_eq_some_iff.mpr ⟨hi, hkey⟩] at hnone
    cases hnone
  · rw [htarget] at hcovers
    obtain ⟨j, hj, hjkey, hcover⟩ := hcovers
    have hfound := hw.indexOf?_eq_some_iff.mpr ⟨hj, hjkey⟩
    obtain rfl := Option.some.inj (hfound.symm.trans hkey)
    rw [hresult]
    exact (hwrite.isMarked_leaf hc hj hl).1 hcover

theorem isMarked_step_of_not_covers (hc : t.Consistent) (hl : t.hierarchy.IsLeaf l) (w : Write)
    (hcovers : ¬ w.Covers t.hierarchy l) : (t.step w.operation).isMarked l = t.isMarked l := by
  unfold Write.Covers at hcovers
  rcases step_write_cases t w with
    ⟨htarget, _⟩ | ⟨key, htarget, ⟨_, hsame⟩ | ⟨i, result, hkey, hwrite, hresult⟩⟩
  · rw [htarget] at hcovers
    exact absurd trivial hcovers
  · rw [hsame]
  · rw [htarget] at hcovers
    obtain ⟨hi, hikey⟩ := hc.wellFormed.indexOf?_eq_some_iff.mp hkey
    rw [hresult]
    refine (hwrite.isMarked_leaf hc hi hl).2 ?_ fun hbelow => hcovers ⟨i, hi, hikey, .inr hbelow⟩
    exact Bool.eq_false_iff.mpr fun hmain => hcovers ⟨i, hi, hikey, .inl hmain⟩

/-! ## Sequences of writes -/

theorem run_append (t : SelectionTree) (ops ops' : List Operation) :
    t.run (ops ++ ops') = (t.run ops).run ops' := List.foldl_append

/-- Writes that do not cover a childless node leave its mark alone. -/
theorem isMarked_run_of_not_covers (hc : t.Consistent) (hl : t.hierarchy.IsLeaf l)
    (ws : List Write) (hws : ∀ w ∈ ws, ¬ w.Covers t.hierarchy l) :
    (t.run (ws.map Write.operation)).isMarked l = t.isMarked l := by
  induction ws generalizing t with
  | nil => rfl
  | cons w ws ih =>
      have hstep := hierarchy_step t w.operation
      have hrest := ih (consistent_step hc w.operation) (hstep.symm ▸ hl) fun w' hw' => by
        rw [hstep]
        exact hws w' (List.mem_cons_of_mem w hw')
      exact hrest.trans (isMarked_step_of_not_covers hc hl w (hws w List.mem_cons_self))

/-- The mark of a childless node is that of the last write that covers it. -/
theorem isMarked_run_of_last (hc : t.Consistent) (hl : t.hierarchy.IsLeaf l)
    (before : List Write) (w : Write) (after : List Write) (hw : w.Covers t.hierarchy l)
    (hafter : ∀ w' ∈ after, ¬ w'.Covers t.hierarchy l) :
    (t.run ((before ++ w :: after).map Write.operation)).isMarked l = w.mark := by
  have hbefore := hierarchy_run t (before.map Write.operation)
  have hcBefore := hc.run (before.map Write.operation)
  have hstep : ((t.run (before.map Write.operation)).step w.operation).hierarchy = t.hierarchy := by
    rw [hierarchy_step, hbefore]
  rw [List.map_append, run_append, List.map_cons]
  calc (((t.run (before.map Write.operation)).step w.operation).run
        (after.map Write.operation)).isMarked l
      = ((t.run (before.map Write.operation)).step w.operation).isMarked l := by
        refine isMarked_run_of_not_covers (consistent_step hcBefore _) ?_ after ?_
        · rwa [hstep]
        · rwa [hstep]
    _ = w.mark := by
        refine isMarked_step_of_covers hcBefore ?_ w ?_
        · rwa [hbefore]
        · rwa [hbefore]

/-- Of writes that cover a node here and there, one is the last. -/
theorem Write.exists_last_covering {h : Hierarchy} {ws : List Write}
    (hex : ∃ w ∈ ws, w.Covers h l) : ∃ before w after, ws = before ++ w :: after ∧
      w.Covers h l ∧ ∀ w' ∈ after, ¬ w'.Covers h l := by
  induction ws with
  | nil =>
      obtain ⟨_, hw, _⟩ := hex
      cases hw
  | cons w ws ih =>
      by_cases hrest : ∃ w' ∈ ws, w'.Covers h l
      · obtain ⟨before, w', after, heq, hcovers, hafter⟩ := ih hrest
        exact ⟨w :: before, w', after, by rw [heq, List.cons_append], hcovers, hafter⟩
      · obtain ⟨w', hw', hcovers⟩ := hex
        rcases List.mem_cons.mp hw' with rfl | htail
        · exact ⟨[], w', ws, rfl, hcovers, fun w'' hw'' h' => hrest ⟨w'', hw'', h'⟩⟩
        · exact absurd ⟨w', htail, hcovers⟩ hrest

/-- The state of a childless node after a run is told by its mark. -/
theorem Consistent.stateOf_run_leaf (hc : t.Consistent) (hl : t.hierarchy.IsLeaf l)
    (ops : List Operation) :
    (t.run ops).stateOf l = CheckState.ofMark ((t.run ops).isMarked l) := by
  refine stateOf_leaf (hc.run ops).wellFormed ?_
  rwa [hierarchy_run]

/-- **The last write wins**: after any writes on the tree of a listing, the state of a childless
node is told by the last of them that covers it, and it is checked if none does; one more write
changes its state only if it covers it, and then to its own mark. -/
theorem stateOf_run_writes {entries : List Entry} (hb : build entries = .ok t)
    (hl : t.hierarchy.IsLeaf l) (ws : List Write) :
    ((∀ w ∈ ws, ¬ w.Covers t.hierarchy l) →
        (t.run (ws.map Write.operation)).stateOf l = .checked) ∧
      (∀ before w after, ws = before ++ w :: after → w.Covers t.hierarchy l →
        (∀ w' ∈ after, ¬ w'.Covers t.hierarchy l) →
        (t.run (ws.map Write.operation)).stateOf l = CheckState.ofMark w.mark) ∧
      ∀ w : Write,
        (w.Covers t.hierarchy l →
          ((t.run (ws.map Write.operation)).step w.operation).stateOf l =
            CheckState.ofMark w.mark) ∧
        (¬ w.Covers t.hierarchy l →
          ((t.run (ws.map Write.operation)).step w.operation).stateOf l =
            (t.run (ws.map Write.operation)).stateOf l) := by
  have hc := consistent_build hb
  have hstate := hc.stateOf_run_leaf hl
  have hsnoc : ∀ w : Write, (t.run (ws.map Write.operation)).step w.operation =
      t.run ((ws ++ [w]).map Write.operation) := fun w => by
    rw [List.map_append, run_append]
    rfl
  have hrun := hierarchy_run t (ws.map Write.operation)
  refine ⟨fun hnone => ?_, fun before w after hws hcovers hafter => ?_, fun w => ⟨?_, ?_⟩⟩
  · have hstart : t.isMarked l = true := by
      obtain ⟨h, _, rfl⟩ := build_eq_ok hb
      exact isMarked_ofHierarchy hl.1
    rw [hstate, isMarked_run_of_not_covers hc hl ws hnone, hstart]
    rfl
  · rw [hstate, hws, isMarked_run_of_last hc hl before w after hcovers hafter]
  · intro hcovers
    rw [hsnoc, hstate, isMarked_run_of_last hc hl ws w [] hcovers fun w' hw' => by cases hw']
  · intro hnot
    rw [hsnoc, hstate, hstate, ← hsnoc]
    refine congrArg CheckState.ofMark (isMarked_step_of_not_covers (hc.run _) ?_ w ?_)
    · rwa [hrun]
    · rwa [hrun]

/-- Checking the main root covers a file below another root; unchecking a directory that is not
above the file, or an unknown key, does not. -/
theorem stateOf_run_twoRootListing : ∃ t, build twoRootListing = .ok t ∧ t.hierarchy.IsLeaf 5 ∧
    (Write.mk true (some 0)).Covers t.hierarchy 5 ∧
    (∀ w ∈ [Write.mk false (some 1), Write.mk false (some 9)], ¬ w.Covers t.hierarchy 5) ∧
    (t.run ([Write.mk false (some 4), ⟨true, some 0⟩, ⟨false, some 1⟩, ⟨false, some 9⟩].map
      Write.operation)).stateOf 5 = .checked := by
  obtain ⟨t, hb⟩ : ∃ t, build twoRootListing = .ok t := ⟨_, rfl⟩
  have hl : t.hierarchy.IsLeaf 5 := by
    cases hb
    exact ⟨by decide, by decide +kernel⟩
  have hroot : (Write.mk true (some 0)).Covers t.hierarchy 5 := by
    cases hb
    exact ⟨0, by decide, by decide +kernel, .inl (by decide +kernel)⟩
  have hothers : ∀ w ∈ [Write.mk false (some 1), Write.mk false (some 9)],
      ¬ w.Covers t.hierarchy 5 := by
    have hnodes : ∀ i < t.hierarchy.size, t.hierarchy.key i = 1 ∨ t.hierarchy.key i = 9 →
        t.hierarchy.isMainRoot i = false ∧ 5 ∉ t.hierarchy.subtree i := by
      cases hb
      decide +kernel
    have hcovers : ∀ key, key = 1 ∨ key = 9 → ∀ mark, ¬ (Write.mk mark (some key)).Covers
        t.hierarchy 5 := by
      rintro key hkey mark ⟨i, hi, rfl, hmain | hbelow⟩
      · exact absurd ((hnodes i hi hkey).1.symm.trans hmain) nofun
      · exact (hnodes i hi hkey).2
          (((consistent_build hb).wellFormed.mem_subtree_iff hi).mpr hbelow)
    intro w hw
    rcases List.mem_pair.mp hw with rfl | rfl
    · exact hcovers 1 (.inl rfl) false
    · exact hcovers 9 (.inr rfl) false
  have hlast := (stateOf_run_writes hb hl
    [⟨false, some 4⟩, ⟨true, some 0⟩, ⟨false, some 1⟩, ⟨false, some 9⟩]).2.1
    [⟨false, some 4⟩] ⟨true, some 0⟩ [⟨false, some 1⟩, ⟨false, some 9⟩] rfl hroot hothers
  exact ⟨t, hb, hl, hroot, hothers, hlast⟩

end SelectionTree

end InstallerBrowser
