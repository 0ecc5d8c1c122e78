import InstallerBrowser.Proofs.Tree.History
import InstallerBrowser.Proofs.Tree.Listing

/-!
# InstallerBrowser.Proofs.Tree.Toggle

What checking, unchecking and toggling answer.

Checking and unchecking answer whether they changed the state of any node (`Truthful`), although
they go by the state of one node, and at the main root by the marks of all.  Toggling is a write of
the mark that its node lacks (`toggle_cases`), so it always finds something to do.  Toggled twice, a
node that is checked or unchecked as a whole leaves the childless nodes as they were, and these
decide every state (`stateOf_congr`).
-/

namespace InstallerBrowser

/-- The mark that toggling gives to a node of some state. -/
def CheckState.toggled : CheckState → Bool
  | .checked => false
  | .unchecked | .partly => true

theorem CheckState.ofMark_toggled_ne (s : CheckState) : CheckState.ofMark s.toggled ≠ s := by
  cases s <;> decide

theorem CheckState.toggled_ofMark (mark : Bool) : (CheckState.ofMark mark).toggled = !mark := by
  cases mark <;> rfl

/-- Out of a state that is not between the two, toggling leads to the other one. -/
theorem CheckState.eq_ofMark_not_toggled {s : CheckState} (hs : s ≠ .partly) :
    s = CheckState.ofMark (!s.toggled) := by
  cases s with
  | checked | unchecked => rfl
  | partly => exact absurd rfl hs

namespace SelectionTree

open Hierarchy

variable {t t' : SelectionTree} {i j : Nat} {mark : Bool} {key : NodeKey}
  {result : SelectionTree × Bool} {entries : List Entry}

/-! ## States that stay -/

/-- The marks of the childless nodes decide the state of every node. -/
theorem stateOf_congr (hw : t.hierarchy.WellFormed) (hh : t'.hierarchy = t.hierarchy)
    (hmarks : ∀ l, t.hierarchy.IsLeaf l → t'.isMarked l = t.isMarked l) (hi : i < t.size) :
    t'.stateOf i = t.stateOf i := by
  have hw' : t'.hierarchy.WellFormed := hh ▸ hw
  have hsize : t'.size = t.size := by rw [size, hh, size]
  induction i using hw.induction_children with
  | step i ih =>
      by_cases hnil : t.hierarchy.children i = []
      · have hleaf : t.hierarchy.IsLeaf i := ⟨hi, hnil⟩
        rw [stateOf_leaf hw hleaf, stateOf_leaf hw' (hh.symm ▸ hleaf), hmarks i hleaf]
      · have hchildren : (t.hierarchy.children i).map t'.stateOf =
            (t.hierarchy.children i).map t.stateOf :=
          List.map_congr_left fun c hc => ih c hc (hw.lt_size_of_mem_children hc)
        rw [stateOf_eq_combine hw hi hnil, stateOf_eq_combine hw' (hsize.symm ▸ hi) (hh.symm ▸ hnil),
          hh, hchildren]

/-- On one hierarchy the states told for the keys are those of the nodes. -/
theorem state?_eq_iff (hw : t.hierarchy.WellFormed) (hh : t'.hierarchy = t.hierarchy) :
    (∀ k, t'.state? k = t.state? k) ↔ ∀ j < t.size, t'.stateOf j = t.stateOf j := by
  simp only [state?, hh]
  constructor
  · intro hall j hj
    have hkey := hall (t.hierarchy.key j)
    rw [hw.indexOf?_eq_some_iff.mpr ⟨hj, rfl⟩] at hkey
    exact Option.some.inj hkey
  · intro hall k
    cases hk : t.hierarchy.indexOf? k with
    | none => rfl
    | some j => exact congrArg some (hall j (lt_size_of_indexOf? hk))

/-! ## What a write answers -/

/-- An operation answers whether it changed the state of a node, and if it did not, it changed
nothing. -/
def Truthful (t : SelectionTree) (result : SelectionTree × Bool) : Prop :=
  (result.2 = true ↔ ∃ k, result.1.state? k ≠ t.state? k) ∧ (result.2 = false → result.1 = t)

theorem truthful_of_nothing (t : SelectionTree) : Truthful t (t, false) :=
  ⟨iff_of_false Bool.false_ne_true fun ⟨_, hk⟩ => hk rfl, fun _ => rfl⟩

/-- A write leaves its node in the state that it is for. -/
theorem NodeWrite.stateOf_self (hwrite : NodeWrite t i mark result) (hc : t.Consistent)
    (hi : i < t.size) : result.1.stateOf i = CheckState.ofMark mark := by
  have hh := hwrite.hierarchy_eq
  have hi' : i < result.1.size := by rwa [size, hh]
  refine (stateOf_eq_ofMark_iff (hwrite.consistent hc hi).wellFormed hi' mark).mpr
    fun l hleaf hli => ?_
  rw [hh] at hleaf hli
  exact (hwrite.isMarked_leaf hc hi hleaf).1 (.inr hli)

/-- A node that is checked or unchecked as a whole has the mark for it. -/
theorem Consistent.isMarked_of_stateOf (hc : t.Consistent) (hi : i < t.size)
    (hstate : t.stateOf i = CheckState.ofMark mark) : t.isMarked i = mark := by
  rw [Bool.eq_iff_iff, hc.isMarked_iff hi, hstate]
  cases mark <;> decide

theorem stateOf_markAll (hc : t.Consistent) (hi : i < t.size) :
    (t.markAll mark).stateOf i = CheckState.ofMark mark :=
  (stateOf_eq_ofMark_iff (consistent_markAll hc).wellFormed hi mark).mpr fun _ hleaf _ =>
    markIn_markAll (hc.size_checked.symm ▸ hleaf.1)

/-- A write that does anything changes the state of a node: at the main root that of a node whose
mark differed, and elsewhere that of its own node. -/
theorem NodeWrite.exists_stateOf_ne (hwrite : NodeWrite t i mark result) (hc : t.Consistent)
    (hi : i < t.size) (hanswer : result.2 = true) :
    ∃ j < t.size, result.1.stateOf j ≠ t.stateOf j := by
  have hself := hwrite.stateOf_self hc hi
  cases hwrite with
  | allKept _ _ | kept _ _ => cases hanswer
  | all _ hdiffers =>
      obtain ⟨j, hj, hne⟩ := hdiffers
      rw [hc.size_checked] at hj
      refine ⟨j, hj, fun hsame => hne (hc.isMarked_of_stateOf hj ?_)⟩
      rw [← hsame, stateOf_markAll hc hj]
  | below _ hne => exact ⟨i, hi, fun hsame => hne (hsame ▸ hself)⟩

theorem NodeWrite.eq_of_answer (hwrite : NodeWrite t i mark result) (hanswer : result.2 = false) :
    result.1 = t := by
  cases hwrite with
  | allKept _ _ | kept _ _ => rfl
  | all _ _ | below _ _ => cases hanswer

theorem NodeWrite.truthful (hwrite : NodeWrite t i mark result) (hc : t.Consistent)
    (hi : i < t.size) : Truthful t result := by
  refine ⟨⟨fun hanswer => ?_, fun ⟨k, hk⟩ => ?_⟩, hwrite.eq_of_answer⟩
  · obtain ⟨j, hj, hne⟩ := hwrite.exists_stateOf_ne hc hi hanswer
    by_contra hnone
    push Not at hnone
    exact hne ((state?_eq_iff hc.wellFormed hwrite.hierarchy_eq).mp hnone j hj)
  · by_contra hanswer
    exact hk (by rw [hwrite.eq_of_answer (Bool.not_eq_true _ ▸ hanswer)])

theorem truthful_check (hc : t.Consistent) (key : NodeKey) : Truthful t (t.check key) := by
  rw [check]
  cases hkey : t.hierarchy.indexOf? key with
  | none => exact truthful_of_nothing t
  | some i => exact (nodeWrite_checkNode t i).truthful hc (lt_size_of_indexOf? hkey)

theorem truthful_uncheck (hc : t.Consistent) (key : NodeKey) : Truthful t (t.uncheck key) := by
  rw [uncheck]
  cases hkey : t.hierarchy.indexOf? key with
  | none => exact truthful_of_nothing t
  | some i => exact (nodeWrite_uncheckNode t i).truthful hc (lt_size_of_indexOf? hkey)

/-! ## Toggling -/

/-- Toggling writes the mark that its node lacks; an unknown key changes nothing. -/
theorem toggle_cases (t : SelectionTree) (key : NodeKey) :
    (t.hierarchy.indexOf? key = none ∧ t.toggle key = (t, false)) ∨
      ∃ i, t.hierarchy.indexOf? key = some i ∧
        NodeWrite t i (t.stateOf i).toggled (t.toggle key) := by
  rw [toggle, state?]
  cases hkey : t.hierarchy.indexOf? key with
  | none => exact .inl ⟨rfl, rfl⟩
  | some i =>
      refine .inr ⟨i, rfl, ?_⟩
      rw [Option.map_some]
      cases hstate : t.stateOf i with
      | checked =>
          simp only [uncheck, hkey]
          exact nodeWrite_uncheckNode t i
      | unchecked | partly =>
          simp only [check, hkey]
          exact nodeWrite_checkNode t i

theorem nodeWrite_toggle (hkey : t.hierarchy.indexOf? key = some i) :
    NodeWrite t i (t.stateOf i).toggled (t.toggle key) := by
  rcases toggle_cases t key with ⟨hnone, _⟩ | ⟨j, hj, hwrite⟩
  · cases hkey.symm.trans hnone
  · cases hkey.symm.trans hj
    exact hwrite

/-- A node that is toggled changes its state, so there is always something to do. -/
theorem toggle_answer_iff (hc : t.Consistent) :
    (t.toggle key).2 = true ↔ ∃ i, t.hierarchy.indexOf? key = some i := by
  rcases toggle_cases t key with ⟨hnone, heq⟩ | ⟨i, hkey, hwrite⟩
  · rw [heq, hnone]
    exact iff_of_false Bool.false_ne_true nofun
  · refine iff_of_true ?_ ⟨i, hkey⟩
    by_contra hanswer
    have hself := hwrite.stateOf_self hc (lt_size_of_indexOf? hkey)
    rw [hwrite.eq_of_answer (Bool.not_eq_true _ ▸ hanswer)] at hself
    exact CheckState.ofMark_toggled_ne _ hself.symm

/-- The state of a node that was toggled. -/
theorem state?_toggle (hc : t.Consistent) {s : CheckState} (hs : t.state? key = some s) :
    (t.toggle key).1.state? key = some (.ofMark s.toggled) := by
  rw [state?, Option.map_eq_some_iff] at hs
  obtain ⟨i, hkey, rfl⟩ := hs
  have hwrite := nodeWrite_toggle hkey
  rw [state?, hwrite.hierarchy_eq, hkey, Option.map_some,
    hwrite.stateOf_self hc (lt_size_of_indexOf? hkey)]

/-- Toggled twice, a node that is checked or unchecked as a whole leaves every state as it was. -/
theorem stateOf_toggle_toggle (hc : t.Consistent) (hkey : t.hierarchy.indexOf? key = some i)
    (hmain : t.hierarchy.isMainRoot i = false) (hstate : t.stateOf i ≠ .partly) (hj : j < t.size) :
    ((t.toggle key).1.toggle key).1.stateOf j = t.stateOf j := by
  have hi := lt_size_of_indexOf? hkey
  have hfirst := nodeWrite_toggle hkey
  have hh := hfirst.hierarchy_eq
  have hc' := hfirst.consistent hc hi
  have hi' : i < (t.toggle key).1.size := by rwa [size, hh]
  have hsecond := nodeWrite_toggle (t := (t.toggle key).1) (hh.symm ▸ hkey)
  rw [hfirst.stateOf_self hc hi, CheckState.toggled_ofMark] at hsecond
  refine stateOf_congr hc.wellFormed (hsecond.hierarchy_eq.trans hh) (fun l hl => ?_) hj
  have hl' : (t.toggle key).1.hierarchy.IsLeaf l := by rwa [hh]
  obtain ⟨hin, hout⟩ := hsecond.isMarked_leaf hc' hi' hl'
  rw [hh] at hin hout
  by_cases hli : t.hierarchy.Below l i
  · rw [hin (.inr hli)]
    have hwhole := CheckState.eq_ofMark_not_toggled hstate
    exact ((stateOf_eq_ofMark_iff hc.wellFormed hi _).mp hwhole l hl hli).symm
  · rw [hout hmain hli, (hfirst.isMarked_leaf hc hi hl).2 hmain hli]

theorem state?_toggle_toggle (hc : t.Consistent) (hmain : t.mainRoot ≠ some key)
    (hstate : t.state? key ≠ some .partly) (k : NodeKey) :
    ((t.toggle key).1.toggle key).1.state? k = t.state? k := by
  have hw := hc.wellFormed
  cases hkey : t.hierarchy.indexOf? key with
  | none =>
      have hsame : t.toggle key = (t, false) := by rw [toggle, state?, hkey]; rfl
      rw [hsame, hsame]
  | some i =>
      have hmain' : t.hierarchy.isMainRoot i = false := by
        refine Bool.eq_false_iff.mpr fun htrue => hmain ?_
        rw [isMainRoot, beq_iff_eq] at htrue
        rw [mainRoot, htrue, Option.map_some, (hw.indexOf?_eq_some_iff.mp hkey).2]
      have hstate' : t.stateOf i ≠ .partly := fun hpartly =>
        hstate (by rw [state?, hkey, Option.map_some, hpartly])
      have hh := (nodeWrite_toggle hkey).hierarchy_eq
      have hh' := (nodeWrite_toggle (t := (t.toggle key).1) (hh.symm ▸ hkey)).hierarchy_eq
      exact (state?_eq_iff hw (hh'.trans hh)).mpr
        (fun j hj => stateOf_toggle_toggle hc hkey hmain' hstate' hj) k

/-! ## Runs -/

/-- The keys of a tree are those of its listing. -/
theorem exists_indexOf?_iff (hb : build entries = .ok t) :
    (∃ i, t.hierarchy.indexOf? key = some i) ↔ ∃ e ∈ entries, e.node = key := by
  obtain ⟨h, hh, rfl⟩ := build_eq_ok hb
  obtain ⟨parents, hbuilt⟩ := Hierarchy.build_eq_ok hh
  have hw := wellFormed_of_build hh
  constructor
  · rintro ⟨i, hi⟩
    obtain ⟨hlt, rfl⟩ := hw.indexOf?_eq_some_iff.mp hi
    rw [hbuilt.size_eq] at hlt
    exact ⟨entries[i], List.getElem_mem hlt, (hbuilt.key_eq hlt).symm⟩
  · rintro ⟨e, he, rfl⟩
    obtain ⟨c, hc⟩ := List.mem_iff_getElem?.mp he
    exact ⟨c, hbuilt.indexOf?_node hw hc⟩

/-- **The answers are truthful, and toggling toggles**: after any operations on the tree of a
listing, checking and unchecking answer whether they changed the state of any node, and change
nothing if they did not.  Toggling answers whether there is such a node, unchecks it if it was
checked and checks it otherwise, and a second time restores every state, if the node is neither the
main root nor partly checked. -/
theorem truthful_run (hb : build entries = .ok t) (ops : List Operation) (key : NodeKey) :
    let s := t.run ops
    Truthful s (s.check key) ∧ Truthful s (s.uncheck key) ∧
      ((s.toggle key).2 = true ↔ ∃ e ∈ entries, e.node = key) ∧
      (∀ state, s.state? key = some state → (s.toggle key).1.state? key =
        some (if state = .checked then .unchecked else .checked)) ∧
      (t.mainRoot ≠ some key → s.state? key ≠ some .partly →
        ∀ k, ((s.toggle key).1.toggle key).1.state? k = s.state? k) := by
  intro s
  have hc : s.Consistent := consistent_run hb ops
  have hh : s.hierarchy = t.hierarchy := hierarchy_run t ops
  refine ⟨truthful_check hc key, truthful_uncheck hc key, ?_, fun state hstate => ?_,
    fun hmain hstate => ?_⟩
  · rw [toggle_answer_iff hc, hh, exists_indexOf?_iff hb]
  · rw [state?_toggle hc hstate]
    cases state <;> rfl
  · refine state?_toggle_toggle hc ?_ hstate
    rwa [mainRoot, hh]

/-- With one of its two files unchecked a directory is partly checked; toggling the other file
twice keeps it so, and toggling the file that is unchecked finds something to do. -/
theorem truthful_run_twoRootListing : ∃ t, build twoRootListing = .ok t ∧
    t.mainRoot ≠ some 2 ∧ (t.run [.uncheck 3]).state? 2 = some .checked ∧
    ((t.run [.uncheck 3]).toggle 2).1.state? 2 = some .unchecked ∧
    ((t.run [.uncheck 3]).toggle 2).1.state? 1 = some .unchecked ∧
    (t.run [.uncheck 3]).state? 1 = some .partly ∧
    (((t.run [.uncheck 3]).toggle 2).1.toggle 2).1.state? 1 = some .partly ∧
    ((t.run [.uncheck 3]).toggle 2).2 = true ∧ (∃ e ∈ twoRootListing, e.node = 2) ∧
    Truthful (t.run [.uncheck 3]) ((t.run [.uncheck 3]).check 2) := by
  obtain ⟨t, hb⟩ : ∃ t, build twoRootListing = .ok t := ⟨_, rfl⟩
  have hmain : t.mainRoot ≠ some 2 := by cases hb; decide +kernel
  have hstate : (t.run [.uncheck 3]).state? 2 = some .checked := by cases hb; decide +kernel
  have hparent : (t.run [.uncheck 3]).state? 1 = some .partly := by cases hb; decide +kernel
  have hcleared : ((t.run [.uncheck 3]).toggle 2).1.state? 1 = some .unchecked := by
    cases hb
    decide +kernel
  have hlisted : ∃ e ∈ twoRootListing, e.node = 2 := by decide
  obtain ⟨hcheck, _, hanswer, htoggle, htwice⟩ := truthful_run hb [.uncheck 3] 2
  exact ⟨t, hb, hmain, hstate, htoggle .checked hstate, hcleared, hparent,
    (htwice hmain (by rw [hstate]; decide) 1).trans hparent, hanswer.mpr hlisted, hlisted, hcheck⟩

end SelectionTree

end InstallerBrowser
