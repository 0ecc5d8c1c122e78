import InstallerBrowser.Proofs.Tree.Build
import InstallerBrowser.Proofs.Tree.State

/-!
# InstallerBrowser.Proofs.Tree.Marks

The marks of the nodes with children.

`Agrees` is the rule that a node with children is marked exactly if one of them is.  A write to a
subtree leaves the rule broken at most at the parent of its node (`agrees_setMarks`); the walk
upwards takes the break along until it is mended (`agrees_markUp`, `agrees_clearUp`), although it
stops early.
-/

namespace InstallerBrowser

namespace SelectionTree

open Hierarchy

variable {h : Hierarchy} {marks : Array Bool} {i j : Nat} {mark : Bool}

/-! ## Rows of marks -/

theorem markIn_setIfInBounds (hi : i < marks.size) :
    markIn (marks.setIfInBounds i mark) j = if i = j then mark else markIn marks j := by
  rw [markIn, getD_setIfInBounds, markIn]
  simp only [hi, and_true]

@[simp] theorem size_setMarks (nodes : List Nat) : (setMarks marks nodes mark).size = marks.size := by
  induction nodes generalizing marks with
  | nil => rfl
  | cons i nodes ih =>
      have hrest := @ih (marks.setIfInBounds i mark)
      rwa [Array.size_setIfInBounds] at hrest

theorem markIn_setMarks {nodes : List Nat} (hnodes : ∀ i ∈ nodes, i < marks.size) :
    markIn (setMarks marks nodes mark) j = if j ∈ nodes then mark else markIn marks j := by
  induction nodes generalizing marks with
  | nil => rfl
  | cons i nodes ih =>
      have hi := hnodes i List.mem_cons_self
      have hrange : ∀ k ∈ nodes, k < (marks.setIfInBounds i mark).size := fun k hk => by
        rw [Array.size_setIfInBounds]
        exact hnodes k (List.mem_cons_of_mem i hk)
      have hrest := ih hrange
      rw [markIn_setIfInBounds hi] at hrest
      refine hrest.trans ?_
      by_cases hj : j ∈ nodes
      · rw [if_pos hj, if_pos (List.mem_cons_of_mem i hj)]
      · by_cases hij : i = j
        · subst hij
          rw [if_neg hj, if_pos rfl, if_pos List.mem_cons_self]
        · rw [if_neg hj, if_neg hij, if_neg]
          rw [List.mem_cons]
          rintro (rfl | hmem)
          · exact hij rfl
          · exact hj hmem

theorem markUp_eq_setMarks (marks : Array Bool) (path : List Nat) :
    ∃ taken, taken ⊆ path ∧ markUp marks path = setMarks marks taken true := by
  induction path generalizing marks with
  | nil => exact ⟨[], List.nil_subset _, rfl⟩
  | cons p rest ih =>
      rw [markUp]
      split
      · exact ⟨[], List.nil_subset _, rfl⟩
      · obtain ⟨taken, htaken, heq⟩ := ih (marks.setIfInBounds p true)
        exact ⟨p :: taken, List.cons_subset_cons p htaken, heq⟩

theorem clearUp_eq_setMarks (h : Hierarchy) (marks : Array Bool) (path : List Nat) :
    ∃ taken, taken ⊆ path ∧ clearUp h marks path = setMarks marks taken false := by
  induction path generalizing marks with
  | nil => exact ⟨[], List.nil_subset _, rfl⟩
  | cons p rest ih =>
      rw [clearUp]
      split
      · exact ⟨[], List.nil_subset _, rfl⟩
      · obtain ⟨taken, htaken, heq⟩ := ih (marks.setIfInBounds p false)
        exact ⟨p :: taken, List.cons_subset_cons p htaken, heq⟩

/-- The walk upwards after a subtree was marked or cleared. -/
def settle (h : Hierarchy) (mark : Bool) (marks : Array Bool) (path : List Nat) : Array Bool :=
  if mark then markUp marks path else clearUp h marks path

/-- The walk upwards writes to some of the nodes of its path. -/
theorem settle_eq_setMarks (h : Hierarchy) (mark : Bool) (marks : Array Bool) (path : List Nat) :
    ∃ taken, taken ⊆ path ∧ settle h mark marks path = setMarks marks taken mark := by
  cases mark with
  | true => exact markUp_eq_setMarks marks path
  | false => exact clearUp_eq_setMarks h marks path

@[simp] theorem size_settle (path : List Nat) : (settle h mark marks path).size = marks.size := by
  obtain ⟨taken, _, heq⟩ := settle_eq_setMarks h mark marks path
  rw [heq, size_setMarks]

/-- The walk upwards changes nothing beside its path. -/
theorem markIn_settle_of_not_mem {path : List Nat} (hpath : ∀ p ∈ path, p < marks.size)
    (hj : j ∉ path) : markIn (settle h mark marks path) j = markIn marks j := by
  obtain ⟨taken, htaken, heq⟩ := settle_eq_setMarks h mark marks path
  rw [heq, markIn_setMarks fun i hi => hpath i (htaken hi), if_neg fun hmem => hj (htaken hmem)]

/-- A write to a subtree sets the marks in it, and no others. -/
theorem markIn_setMarks_subtree (hw : h.WellFormed) (hi : i < h.size)
    (hsize : marks.size = h.size) (mark : Bool) (j : Nat) :
    markIn (setMarks marks (h.subtree i) mark) j =
      if j ∈ h.subtree i then mark else markIn marks j :=
  markIn_setMarks fun _ hk => hsize ▸ lt_size_of_below ((hw.mem_subtree_iff hi).mp hk) hi

/-! ## The rule for one node -/

/-- A node with children is marked exactly if one of them is. -/
def Agrees (h : Hierarchy) (marks : Array Bool) (i : Nat) : Prop :=
  h.children i ≠ [] → markIn marks i = (h.children i).any (markIn marks)

/-- The rule looks at a node and its children only. -/
theorem Agrees.congr {marks' : Array Bool} (hagrees : Agrees h marks i)
    (hself : markIn marks' i = markIn marks i)
    (hchildren : ∀ c ∈ h.children i, markIn marks' c = markIn marks c) : Agrees h marks' i := by
  intro hne
  rw [hself, hagrees hne, Bool.eq_iff_iff, List.any_eq_true, List.any_eq_true]
  exact exists_congr fun c => and_congr_right fun hc => by rw [hchildren c hc]

/-- A marked node with a marked child keeps the rule. -/
theorem agrees_of_marked_child (hmark : markIn marks i = true) (hc : c ∈ h.children i)
    (hchild : markIn marks c = true) : Agrees h marks i := fun _ => by
  rw [hmark, eq_comm, List.any_eq_true]
  exact ⟨c, hc, hchild⟩

/-- A node that is not marked, nor one of its children, keeps the rule. -/
theorem agrees_of_unmarked_children (hmark : markIn marks i = false)
    (hchildren : ∀ c ∈ h.children i, markIn marks c = false) : Agrees h marks i := fun _ => by
  rw [hmark, eq_comm, List.any_eq_false]
  exact fun c hc => by rw [hchildren c hc]; exact Bool.false_ne_true

/-- Marks that are the same for a node and its children keep the rule. -/
theorem agrees_of_same (hself : markIn marks i = mark)
    (hchildren : ∀ c ∈ h.children i, markIn marks c = mark) : Agrees h marks i := by
  cases mark with
  | true =>
      intro hne
      obtain ⟨c, hc⟩ := List.exists_mem_of_ne_nil _ hne
      exact agrees_of_marked_child hself hc (hchildren c hc) hne
  | false => exact agrees_of_unmarked_children hself hchildren

/-- A write to one node breaks the rule at most at that node and at its parent. -/
theorem agrees_setIfInBounds (hw : h.WellFormed) (hp : p < marks.size) (hpj : p ≠ j)
    (hj : h.parent p ≠ some j) (hagrees : Agrees h marks j) :
    Agrees h (marks.setIfInBounds p mark) j := by
  refine hagrees.congr (by rw [markIn_setIfInBounds hp, if_neg hpj]) fun c hc => ?_
  rw [markIn_setIfInBounds hp, if_neg]
  rintro rfl
  exact hj (hw.mem_children.mp hc)

/-- A write to a subtree breaks the rule at most at the parent of its node. -/
theorem agrees_setMarks (hw : h.WellFormed) (hi : i < h.size) (hsize : marks.size = h.size)
    (hagrees : ∀ j, Agrees h marks j) (hj : h.parent i ≠ some j) :
    Agrees h (setMarks marks (h.subtree i) mark) j := by
  have hmem : ∀ {k}, k ∈ h.subtree i ↔ h.Below k i := hw.mem_subtree_iff hi
  have hset := fun k => markIn_setMarks_subtree hw hi hsize mark k
  by_cases hji : j ∈ h.subtree i
  · refine agrees_of_same (by rw [hset, if_pos hji]) fun c hc => ?_
    have hcj := below_of_parent (hw.mem_children.mp hc)
    rw [hset, if_pos (hmem.mpr (hcj.trans (hmem.mp hji)))]
  · refine (hagrees j).congr (by rw [hset, if_neg hji]) fun c hc => ?_
    rw [hset, if_neg fun hci => ?_]
    -- a child in the subtree of `i` is `i` itself, or else its parent is in there too
    have hp := hw.mem_children.mp hc
    rcases below_iff.mp (hmem.mp hci) with rfl | hproper
    · exact hj hp
    · exact hji (hmem.mpr (hproper.of_parent hp))

/-! ## The walk upwards

`i` is a node whose mark is right, and its parent is the only node at which the rule may be
broken. -/

/-- The walk that marks upwards mends the rule from the parent of a marked node on. -/
theorem agrees_markUp (hw : h.WellFormed) (hsize : marks.size = h.size)
    (hexcept : ∀ j, h.parent i ≠ some j → Agrees h marks j) (hmark : markIn marks i = true) :
    ∀ j, Agrees h (markUp marks (h.ancestors i)) j := by
  induction i using hw.induction_parent generalizing marks with
  | step i ih =>
      cases hp : h.parent i with
      | none =>
          rw [ancestors_of_root hp, markUp]
          exact fun j => hexcept j (by rw [hp]; exact Option.some_ne_none j ∘ Eq.symm)
      | some p =>
          have hchild := hw.mem_children.mpr hp
          have hpsize := hsize.symm ▸ hw.parent_lt_size hp
          have hoff : ∀ j, p ≠ j → Agrees h marks j := fun j hpj =>
            hexcept j fun h => hpj (Option.some.inj (hp.symm.trans h))
          rw [hw.ancestors_of_parent hp, markUp]
          split
          · next hmarked =>
              intro j
              by_cases hpj : p = j
              · subst hpj
                exact agrees_of_marked_child hmarked hchild hmark
              · exact hoff j hpj
          · next hunmarked =>
              have hset : ∀ k, markIn (marks.setIfInBounds p true) k =
                  if p = k then true else markIn marks k := fun k => markIn_setIfInBounds hpsize
              refine ih p hp (by rw [Array.size_setIfInBounds, hsize]) (fun j hj => ?_)
                (by rw [hset, if_pos rfl])
              by_cases hpj : p = j
              · subst hpj
                refine agrees_of_marked_child (by rw [hset, if_pos rfl]) hchild ?_
                rw [hset, hmark, ite_self]
              · exact agrees_setIfInBounds hw hpsize hpj hj (hoff j hpj)

/-- The walk that clears upwards mends the rule from the parent of a cleared node on, if the
nodes above were marked. -/
theorem agrees_clearUp (hw : h.WellFormed) (hsize : marks.size = h.size)
    (hexcept : ∀ j, h.parent i ≠ some j → Agrees h marks j) (hmark : markIn marks i = false)
    (habove : ∀ a, h.ProperlyBelow i a → markIn marks a = true) :
    ∀ j, Agrees h (clearUp h marks (h.ancestors i)) j := by
  induction i using hw.induction_parent generalizing marks with
  | step i ih =>
      cases hp : h.parent i with
      | none =>
          rw [ancestors_of_root hp, clearUp]
          exact fun j => hexcept j (by rw [hp]; exact Option.some_ne_none j ∘ Eq.symm)
      | some p =>
          have hpsize := hsize.symm ▸ hw.parent_lt_size hp
          have hproper := properlyBelow_of_parent hp
          have hoff : ∀ j, p ≠ j → Agrees h marks j := fun j hpj =>
            hexcept j fun h => hpj (Option.some.inj (hp.symm.trans h))
          rw [hw.ancestors_of_parent hp, clearUp]
          split
          · next hany =>
              obtain ⟨c, hc, hmarked⟩ := List.any_eq_true.mp hany
              intro j
              by_cases hpj : p = j
              · subst hpj
                exact agrees_of_marked_child (habove p hproper) hc hmarked
              · exact hoff j hpj
          · next hnone =>
              have hset : ∀ k, markIn (marks.setIfInBounds p false) k =
                  if p = k then false else markIn marks k := fun k => markIn_setIfInBounds hpsize
              have hclear : ∀ c ∈ h.children p, markIn marks c = false := by
                simpa using hnone
              refine ih p hp (by rw [Array.size_setIfInBounds, hsize]) (fun j hj => ?_)
                (by rw [hset, if_pos rfl]) fun a ha => ?_
              · by_cases hpj : p = j
                · subst hpj
                  refine agrees_of_unmarked_children (by rw [hset, if_pos rfl]) fun c hc => ?_
                  rw [hset, hclear c hc, ite_self]
                · exact agrees_setIfInBounds hw hpsize hpj hj (hoff j hpj)
              · rw [hset, if_neg]
                · exact habove a (Relation.TransGen.trans hproper ha)
                · rintro rfl
                  exact hw.not_properlyBelow_self ha

end SelectionTree

end InstallerBrowser
