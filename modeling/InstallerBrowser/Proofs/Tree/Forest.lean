import InstallerBrowser.Proofs.Tree.Walk
import Mathlib.Data.List.Perm.Subperm
import Mathlib.Tactic.ByContra

/-!
# InstallerBrowser.Proofs.Tree.Forest

Hierarchies as forests.

A hierarchy is well formed if its links agree both ways, its numbers are in range and its depths
grow by one from a parent to its children.  Below that line nothing looks at how a hierarchy was
built: `Below` is descent by parents, and

* `mem_subtree_iff` — a subtree lists what is below its node, each node once;
* `mem_ancestors_iff` — the climb lists what a node is properly below;
* `below_or_below` — the nodes above a node form a chain;
* `exists_leaf_below` — every node has a childless node at or below it.
-/

namespace InstallerBrowser

/-- Different numbers below a bound are no more than the bound. -/
theorem length_le_of_nodup {numbers : List Nat} (hnodup : numbers.Nodup)
    (hlt : ∀ i ∈ numbers, i < n) : numbers.length ≤ n := by
  have hrange : numbers ⊆ List.range n := fun i hi => List.mem_range.mpr (hlt i hi)
  have hle := (hnodup.subperm hrange).length_le
  rwa [List.length_range] at hle

namespace Hierarchy

/-! ## Descent -/

/-- `h.Below j i`: node `j` is node `i` or a descendant of it. -/
def Below (h : Hierarchy) : Nat → Nat → Prop :=
  Relation.ReflTransGen fun c p => h.parent c = some p

/-- `h.ProperlyBelow j i`: node `j` is a descendant of node `i`. -/
def ProperlyBelow (h : Hierarchy) : Nat → Nat → Prop :=
  Relation.TransGen fun c p => h.parent c = some p

/-- A node without children. -/
def IsLeaf (h : Hierarchy) (i : Nat) : Prop := i < h.size ∧ h.children i = []

/-- The depth that a node holds. -/
def depth (h : Hierarchy) (i : Nat) : Nat :=
  match h.node? i with
  | some node => node.depth
  | none => 0

/-- The number by which a node can be extracted. -/
def fileId (h : Hierarchy) (i : Nat) : Option FileId := (h.node? i).bind (·.entry.fileId)

variable {h : Hierarchy} {i j a b c p : Nat}

theorem below_refl : h.Below i i := .refl

theorem Below.trans (hji : h.Below j i) (hia : h.Below i a) : h.Below j a :=
  Relation.ReflTransGen.trans hji hia

theorem ProperlyBelow.below (hji : h.ProperlyBelow j i) : h.Below j i := hji.to_reflTransGen

theorem below_of_parent (hp : h.parent c = some p) : h.Below c p := .single hp

theorem properlyBelow_of_parent (hp : h.parent c = some p) : h.ProperlyBelow c p := .single hp

theorem below_iff : h.Below j i ↔ j = i ∨ h.ProperlyBelow j i := by
  rw [Below, Relation.reflTransGen_iff_eq_or_transGen, eq_comm]
  rfl

theorem properlyBelow_of_below_of_ne (hji : h.Below j i) (hne : j ≠ i) : h.ProperlyBelow j i :=
  (below_iff.mp hji).resolve_left hne

theorem properlyBelow_iff_parent :
    h.ProperlyBelow j i ↔ ∃ p, h.parent j = some p ∧ h.Below p i :=
  Relation.TransGen.head'_iff

theorem ProperlyBelow.of_parent (hji : h.ProperlyBelow j i) (hp : h.parent j = some p) :
    h.Below p i := by
  obtain ⟨q, hq, hqi⟩ := properlyBelow_iff_parent.mp hji
  rw [hp] at hq
  cases hq
  exact hqi

theorem not_properlyBelow_of_parent_eq_none (hp : h.parent j = none) : ¬ h.ProperlyBelow j i := by
  intro hji
  obtain ⟨q, hq, _⟩ := properlyBelow_iff_parent.mp hji
  rw [hp] at hq
  cases hq

theorem eq_of_below_of_parent_eq_none (hji : h.Below j i) (hp : h.parent j = none) : j = i :=
  (below_iff.mp hji).resolve_right (not_properlyBelow_of_parent_eq_none hp)

/-- The nodes above a node form a chain. -/
theorem below_or_below (ha : h.Below j a) (hb : h.Below j b) : h.Below a b ∨ h.Below b a := by
  refine Relation.ReflTransGen.total_of_right_unique ?_ ha hb
  intro x y z hy hz
  exact Option.some.inj (hy.symm.trans hz)

theorem lt_size_of_parent_eq_some (hp : h.parent c = some p) : c < h.size := by
  by_contra hlt
  have hnone : h.node? c = none := Array.getElem?_eq_none (Nat.le_of_not_lt hlt)
  rw [parent, hnone] at hp
  cases hp

theorem lt_size_of_below (hji : h.Below j i) (hi : i < h.size) : j < h.size := by
  rcases below_iff.mp hji with rfl | hproper
  · exact hi
  · obtain ⟨q, hq, _⟩ := properlyBelow_iff_parent.mp hproper
    exact lt_size_of_parent_eq_some hq

theorem lt_size_of_fileId {x : FileId} (hi : h.fileId i = some x) : i < h.size := by
  by_contra hlt
  have hnone : h.node? i = none := Array.getElem?_eq_none (Nat.le_of_not_lt hlt)
  rw [fileId, hnone] at hi
  cases hi

theorem eq_of_isMainRoot (hi : h.isMainRoot i = true) (hj : h.isMainRoot j = true) : i = j := by
  rw [isMainRoot, beq_iff_eq] at hi hj
  exact Option.some.inj (hi.symm.trans hj)

theorem lt_size_of_indexOf? {key : NodeKey} (hi : h.indexOf? key = some i) : i < h.size :=
  (Array.findIdx?_eq_some_iff_getElem.mp hi).choose

theorem ancestors_of_root (hp : h.parent i = none) : h.ancestors i = [] := by
  rw [ancestors]
  cases h.size with
  | zero => rfl
  | succ n => exact climb_succ_of_none hp

/-! ## Well-formed hierarchies -/

/-- The links agree both ways, the numbers are in range and in listing order, the depths grow by
one from a parent to its children, and `order` goes through all nodes by depth. -/
structure WellFormed (h : Hierarchy) : Prop where
  mem_children : ∀ {c p}, c ∈ h.children p ↔ h.parent c = some p
  mem_roots : ∀ {i}, i ∈ h.roots ↔ i < h.size ∧ h.parent i = none
  children_sorted : ∀ i, (h.children i).Pairwise (· < ·)
  roots_sorted : h.roots.Pairwise (· < ·)
  parent_lt_size : ∀ {c p}, h.parent c = some p → p < h.size
  depth_lt_size : ∀ {i}, i < h.size → h.depth i < h.size
  depth_of_parent : ∀ {c p}, h.parent c = some p → h.depth c = h.depth p + 1
  mem_order : ∀ {i}, i < h.size → i ∈ h.order
  order_sorted : h.order.Pairwise fun i j => h.depth i ≤ h.depth j
  root_of_isMainRoot : ∀ {m}, h.isMainRoot m = true → m < h.size ∧ h.parent m = none
  key_injective : ∀ {i j}, i < h.size → j < h.size → h.key i = h.key j → i = j

/-- The pre-order of all nodes, roots and children in listing order. -/
structure Preorder (h : Hierarchy) (all : List Nat) : Prop where
  visits : Visits h.children h.roots all
  mem_iff : ∀ i, i ∈ all ↔ i < h.size
  nodup : all.Nodup
  roots_sorted : h.roots.Pairwise (· < ·)
  children_sorted : ∀ i, (h.children i).Pairwise (· < ·)

namespace WellFormed

theorem lt_size_of_mem_children (hw : h.WellFormed) (hc : c ∈ h.children p) : c < h.size :=
  lt_size_of_parent_eq_some (hw.mem_children.mp hc)

theorem nodup_children (hw : h.WellFormed) (i : Nat) : (h.children i).Nodup :=
  (hw.children_sorted i).imp fun hlt => Nat.ne_of_lt hlt

/-- A node whose parent has no other child is its only child. -/
theorem children_eq_singleton (hw : h.WellFormed) (hp : h.parent i = some p)
    (hall : ∀ c ∈ h.children p, c = i) : h.children p = [i] := by
  have hmem := hw.mem_children.mpr hp
  have hnodup := hw.nodup_children p
  cases hchildren : h.children p with
  | nil =>
      rw [hchildren] at hmem
      cases hmem
  | cons c rest =>
      rw [hchildren] at hall hnodup
      obtain rfl := hall c List.mem_cons_self
      cases rest with
      | nil => rfl
      | cons d rest =>
          obtain rfl := hall d (List.mem_cons_of_mem _ List.mem_cons_self)
          exact absurd List.mem_cons_self (List.nodup_cons.mp hnodup).1

theorem properlyBelow_iff_child (hw : h.WellFormed) :
    h.ProperlyBelow j i ↔ ∃ c ∈ h.children i, h.Below j c := by
  rw [ProperlyBelow, Relation.TransGen.tail'_iff]
  simp only [hw.mem_children, and_comm, Below]

theorem children_ne_nil_of_properlyBelow (hw : h.WellFormed) (hji : h.ProperlyBelow j i) :
    h.children i ≠ [] := by
  obtain ⟨c, hc, _⟩ := hw.properlyBelow_iff_child.mp hji
  exact List.ne_nil_of_mem hc

/-- A childless node has only itself below it. -/
theorem eq_of_below_leaf (hw : h.WellFormed) (hleaf : h.IsLeaf i) (hji : h.Below j i) : j = i :=
  (below_iff.mp hji).resolve_right fun hproper =>
    hw.children_ne_nil_of_properlyBelow hproper hleaf.2

theorem depth_le_of_below (hw : h.WellFormed) (hji : h.Below j i) : h.depth i ≤ h.depth j := by
  induction hji with
  | refl => exact Nat.le_refl _
  | tail _ hp ih =>
      have hdepth := hw.depth_of_parent hp
      omega

theorem depth_lt_of_properlyBelow (hw : h.WellFormed) (hji : h.ProperlyBelow j i) :
    h.depth i < h.depth j := by
  obtain ⟨p, hp, hpi⟩ := properlyBelow_iff_parent.mp hji
  have hdepth := hw.depth_of_parent hp
  have hle := hw.depth_le_of_below hpi
  omega

theorem not_properlyBelow_self (hw : h.WellFormed) : ¬ h.ProperlyBelow i i := fun hii =>
  Nat.lt_irrefl _ (hw.depth_lt_of_properlyBelow hii)

theorem below_lt_size (hw : h.WellFormed) (hji : h.Below j i) (hj : j < h.size) : i < h.size := by
  induction hji with
  | refl => exact hj
  | tail _ hp _ => exact hw.parent_lt_size hp

/-- A key finds its node. -/
theorem indexOf?_eq_some_iff (hw : h.WellFormed) {key : NodeKey} :
    h.indexOf? key = some i ↔ i < h.size ∧ h.key i = key := by
  have hkey : ∀ k (hk : k < h.nodes.size), h.key k = h.nodes[k].entry.node := fun k hk => by
    rw [Hierarchy.key, node?, Array.getElem?_eq_getElem hk]
  rw [indexOf?, Array.findIdx?_eq_some_iff_getElem]
  constructor
  · rintro ⟨hi, hfound, _⟩
    exact ⟨hi, (hkey i hi).trans (eq_of_beq hfound)⟩
  · rintro ⟨hi, rfl⟩
    refine ⟨hi, by rw [hkey i hi, beq_self_eq_true], fun j hji hfound => ?_⟩
    have hj : j < h.nodes.size := Nat.lt_trans hji hi
    have heq := hw.key_injective hj hi ((hkey j hj).trans (eq_of_beq hfound))
    omega

/-- From the childless nodes upwards: what holds of a node once it holds of its children holds of
every node. -/
theorem induction_children (hw : h.WellFormed) {P : Nat → Prop}
    (step : ∀ i, (∀ c ∈ h.children i, P c) → P i) (i : Nat) : P i := by
  generalize hn : h.size - h.depth i = n
  induction n using Nat.strongRecOn generalizing i with
  | ind n ih =>
      refine step i fun c hc => ih _ ?_ c rfl
      have hdepth := hw.depth_of_parent (hw.mem_children.mp hc)
      have hlt := hw.depth_lt_size (hw.lt_size_of_mem_children hc)
      omega

/-- From the roots downwards: what holds of a node once it holds of its parent holds of every
node. -/
theorem induction_parent (hw : h.WellFormed) {P : Nat → Prop}
    (step : ∀ i, (∀ p, h.parent i = some p → P p) → P i) (i : Nat) : P i := by
  generalize hn : h.depth i = n
  induction n using Nat.strongRecOn generalizing i with
  | ind n ih =>
      refine step i fun p hp => ih _ ?_ p rfl
      have hdepth := hw.depth_of_parent hp
      omega

/-- Every node has a childless node at or below it. -/
theorem exists_leaf_below (hw : h.WellFormed) (hi : i < h.size) :
    ∃ l, h.IsLeaf l ∧ h.Below l i := by
  induction i using hw.induction_children with
  | step i ih =>
      cases hc : h.children i with
      | nil => exact ⟨i, ⟨hi, hc⟩, below_refl⟩
      | cons c rest =>
          have hmem : c ∈ h.children i := by rw [hc]; exact List.mem_cons_self
          obtain ⟨l, hleaf, hlc⟩ := ih c hmem (hw.lt_size_of_mem_children hmem)
          exact ⟨l, hleaf, hlc.trans (below_of_parent (hw.mem_children.mp hmem))⟩

/-! ## Walks down -/

theorem leads_children_iff (hw : h.WellFormed) : Leads h.children i j ↔ h.Below j i := by
  rw [Below, ← Relation.reflTransGen_swap]
  simp only [Leads, hw.mem_children]

/-- What a walk that steps to the children in part leads to is below its start. -/
theorem below_of_leads (hw : h.WellFormed) {next : Nat → List Nat}
    (hpart : ∀ i, next i = [] ∨ next i = h.children i) (hij : Leads next i j) : h.Below j i := by
  refine hw.leads_children_iff.mp (Relation.ReflTransGen.mono ?_ _ _ hij)
  intro a c hc
  rwa [next_eq_of_mem hpart hc] at hc

/-- The subtrees of different nodes with the same parent, or of different roots, are disjoint. -/
theorem not_below_of_parent_eq (hw : h.WellFormed) (hne : a ≠ b) (hp : h.parent a = h.parent b)
    (ha : h.Below j a) : ¬ h.Below j b := by
  intro hb
  -- the one is below the other, hence below its own parent
  have hcycle : ∀ x y, x ≠ y → h.parent x = h.parent y → ¬ h.Below x y := by
    intro x y hxy hpxy hbelow
    obtain ⟨q, hq, hqy⟩ := properlyBelow_iff_parent.mp (properlyBelow_of_below_of_ne hbelow hxy)
    have hyq := properlyBelow_of_parent (hpxy.symm.trans hq)
    exact hw.not_properlyBelow_self (Relation.TransGen.trans_left hyq hqy)
  cases below_or_below ha hb with
  | inl hab => exact hcycle a b hne hp hab
  | inr hba => exact hcycle b a hne.symm hp.symm hba

/-- A walk that steps to the children in part, from nodes with disjoint subtrees, takes the
pre-order, which lists no node twice. -/
theorem exists_traverse_eq (hw : h.WellFormed) {next : Nat → List Nat}
    (hpart : ∀ i, next i = [] ∨ next i = h.children i) {work : List Nat}
    (hsize : ∀ i ∈ work, i < h.size)
    (hapart : work.Pairwise fun a b => ∀ j, h.Below j a → ¬ h.Below j b) :
    ∃ taken, Visits next work taken ∧ taken.Nodup ∧
      traverse next h.size work = (taken, []) := by
  have hmem : ∀ i, ∀ c ∈ next i, c ∈ h.children i := by
    intro i c hc
    rwa [next_eq_of_mem hpart hc] at hc
  have hfall : ∀ i, ∀ c ∈ next i, h.size - h.depth c < h.size - h.depth i := by
    intro i c hc
    have hdepth := hw.depth_of_parent (hw.mem_children.mp (hmem i c hc))
    have hlt := hw.depth_lt_size (hw.lt_size_of_mem_children (hmem i c hc))
    omega
  have hacyclic : ∀ i, ∀ c ∈ next i, ¬ Leads next c i := by
    intro i c hc hci
    have hle := hw.depth_le_of_below (hw.below_of_leads hpart hci)
    have hdepth := hw.depth_of_parent (hw.mem_children.mp (hmem i c hc))
    omega
  have hsiblings : ∀ i, Apart next (next i) := by
    intro i
    cases hpart i with
    | inl hnil =>
        rw [hnil]
        exact List.Pairwise.nil
    | inr heq =>
        rw [heq]
        refine (hw.nodup_children i).imp_of_mem fun {x y} hx hy hxy j hxj hyj => ?_
        have hp := (hw.mem_children.mp hx).trans (hw.mem_children.mp hy).symm
        exact hw.not_below_of_parent_eq hxy hp (hw.below_of_leads hpart hxj)
          (hw.below_of_leads hpart hyj)
  have hwork : Apart next work := hapart.imp fun hab j haj hbj =>
    hab j (hw.below_of_leads hpart haj) (hw.below_of_leads hpart hbj)
  obtain ⟨taken, htaken⟩ := exists_visits hfall work
  have hnodup := nodup_of_visits hacyclic hsiblings htaken hwork
  have hlt : ∀ j ∈ taken, j < h.size := by
    intro j hj
    obtain ⟨i, hi, hij⟩ := (mem_visits_iff htaken).mp hj
    exact lt_size_of_below (hw.below_of_leads hpart hij) (hsize i hi)
  exact ⟨taken, htaken, hnodup, traverse_eq_of_visits htaken (length_le_of_nodup hnodup hlt)⟩

/-- The roots have disjoint subtrees. -/
theorem roots_apart (hw : h.WellFormed) :
    h.roots.Pairwise fun a b => ∀ j, h.Below j a → ¬ h.Below j b := by
  refine hw.roots_sorted.imp_of_mem fun {a b} ha hb hab j hja => ?_
  have hp := (hw.mem_roots.mp ha).2.trans (hw.mem_roots.mp hb).2.symm
  exact hw.not_below_of_parent_eq (Nat.ne_of_lt hab) hp hja

theorem subtree_visits (hw : h.WellFormed) (hi : i < h.size) :
    Visits h.children [i] (h.subtree i) ∧ (h.subtree i).Nodup := by
  have hwork : ∀ j ∈ [i], j < h.size := by simpa using hi
  obtain ⟨taken, htaken, hnodup, heq⟩ := hw.exists_traverse_eq (fun _ => .inr rfl) hwork
    (List.pairwise_singleton _ _)
  rw [subtree, heq]
  exact ⟨htaken, hnodup⟩

/-- A subtree lists what is at or below its node. -/
theorem mem_subtree_iff (hw : h.WellFormed) (hi : i < h.size) :
    j ∈ h.subtree i ↔ h.Below j i := by
  rw [mem_visits_iff (hw.subtree_visits hi).1, ← hw.leads_children_iff]
  simp

/-- Every node is at or below a root. -/
theorem exists_root_above (hw : h.WellFormed) (hi : i < h.size) : ∃ r ∈ h.roots, h.Below i r := by
  induction i using hw.induction_parent with
  | step i ih =>
      cases hp : h.parent i with
      | none => exact ⟨i, hw.mem_roots.mpr ⟨hi, hp⟩, below_refl⟩
      | some p =>
          obtain ⟨r, hr, hpr⟩ := ih p hp (hw.parent_lt_size hp)
          exact ⟨r, hr, (below_of_parent hp).trans hpr⟩

/-- From the roots a walk that steps to the children in part gets to a node exactly if it steps on
from every node above it. -/
theorem leads_from_root_iff (hw : h.WellFormed) {next : Nat → List Nat}
    (hpart : ∀ i, next i = [] ∨ next i = h.children i) (hi : i < h.size) :
    (∃ r ∈ h.roots, Leads next r i) ↔ ∀ a, h.ProperlyBelow i a → next a = h.children a := by
  induction i using hw.induction_parent with
  | step i ih =>
      cases hp : h.parent i with
      | none =>
          exact iff_of_true ⟨i, hw.mem_roots.mpr ⟨hi, hp⟩, .refl⟩ fun a ha =>
            absurd ha (not_properlyBelow_of_parent_eq_none hp)
      | some p =>
          have hip := hw.mem_children.mpr hp
          have ih := ih p hp (hw.parent_lt_size hp)
          constructor
          · rintro ⟨r, hr, hri⟩ a ha
            -- the walk gets to `i` from its parent, since a root has none
            obtain ⟨q, hrq, hqi⟩ : ∃ q, Leads next r q ∧ i ∈ next q := by
              cases Relation.ReflTransGen.cases_tail hri with
              | inl heq =>
                  rw [heq, (hw.mem_roots.mp hr).2] at hp
                  cases hp
              | inr hlast => exact hlast
            have hfull := next_eq_of_mem hpart hqi
            rw [hfull, hw.mem_children, hp] at hqi
            cases hqi
            rcases below_iff.mp (ha.of_parent hp) with rfl | hpa
            · exact hfull
            · exact ih.mp ⟨r, hr, hrq⟩ a hpa
          · intro hall
            obtain ⟨r, hr, hrp⟩ := ih.mpr fun a ha =>
              hall a (Relation.TransGen.trans (properlyBelow_of_parent hp) ha)
            refine ⟨r, hr, hrp.tail ?_⟩
            rw [hall p (properlyBelow_of_parent hp)]
            exact hip

theorem exists_preorder (hw : h.WellFormed) : ∃ all, h.Preorder all := by
  obtain ⟨all, hall, hnodup, _⟩ := hw.exists_traverse_eq (fun _ => .inr rfl)
    (fun i hi => (hw.mem_roots.mp hi).1) hw.roots_apart
  refine ⟨all, hall, fun i => ?_, hnodup, hw.roots_sorted, hw.children_sorted⟩
  rw [mem_visits_iff hall]
  constructor
  · rintro ⟨r, hr, hri⟩
    exact lt_size_of_below (hw.leads_children_iff.mp hri) (hw.mem_roots.mp hr).1
  · intro hi
    obtain ⟨r, hr, hir⟩ := hw.exists_root_above hi
    exact ⟨r, hr, hw.leads_children_iff.mpr hir⟩

/-! ## The climb -/

theorem ancestors_of_parent (hw : h.WellFormed) (hp : h.parent i = some p) :
    h.ancestors i = p :: h.ancestors p := by
  have hi := hw.depth_lt_size (lt_size_of_parent_eq_some hp)
  have hdepth := hw.depth_of_parent hp
  obtain ⟨n, hn⟩ : ∃ n, h.size = n + 1 := ⟨h.size - 1, by omega⟩
  have hfall : ∀ i p, h.parent i = some p → h.depth p < h.depth i := by
    intro i p hp
    have hdepth := hw.depth_of_parent hp
    omega
  rw [ancestors, ancestors, hn, climb_succ_of_some hp,
    climb_eq_of_depth_lt hfall (a := n) (b := n + 1) (by omega) (by omega)]

/-- The climb lists what a node is properly below. -/
theorem mem_ancestors_iff (hw : h.WellFormed) : a ∈ h.ancestors i ↔ h.ProperlyBelow i a := by
  induction i using hw.induction_parent with
  | step i ih =>
      rw [properlyBelow_iff_parent]
      cases hp : h.parent i with
      | none => simp [ancestors_of_root hp]
      | some p =>
          rw [hw.ancestors_of_parent hp, List.mem_cons, ih p hp]
          simp [below_iff, eq_comm]

end WellFormed

end Hierarchy

end InstallerBrowser
