import InstallerBrowser.Tree.Hierarchy
import Mathlib.Logic.Relation

/-!
# InstallerBrowser.Proofs.Tree.Walk

What the worklist and the climb list, said without a worklist and without a bound.

`Visits next work taken` is the pre-order of the nodes that `next` leads to from `work`.  The
worklist takes exactly that list as soon as its bound reaches the length of the list:

* `exists_visits` — a walk that gets nearer to a floor has a pre-order;
* `mem_visits_iff` — it lists what can be reached;
* `nodup_of_visits` — it lists nothing twice, if no two ways lead to one node;
* `visits_of_perm_next` — in another order of the ways it lists the same;
* `traverse_eq_of_visits` — the worklist takes it, and leaves nothing.
-/

namespace InstallerBrowser

variable {next : Nat → List Nat} {parent : Nat → Option Nat}

/-! ## Pre-order -/

/-- `taken` lists the nodes of `work` in their order, and right behind each node all that `next`
leads to from it, in pre-order again. -/
inductive Visits (next : Nat → List Nat) : List Nat → List Nat → Prop
  | nil : Visits next [] []
  | cons : Visits next (next i) below → Visits next work after →
      Visits next (i :: work) (i :: (below ++ after))

/-- `next` leads from one node to another, in any number of steps. -/
def Leads (next : Nat → List Nat) : Nat → Nat → Prop :=
  Relation.ReflTransGen fun i c => c ∈ next i

theorem leads_iff : Leads next i j ↔ i = j ∨ ∃ c ∈ next i, Leads next c j :=
  Relation.ReflTransGen.cases_head_iff

theorem visits_append (ha : Visits next xs as) (hb : Visits next ys bs) :
    Visits next (xs ++ ys) (as ++ bs) := by
  induction ha with
  | nil => exact hb
  | cons hbelow _ _ ihafter =>
      rw [List.cons_append, List.cons_append, List.append_assoc]
      exact .cons hbelow ihafter

/-- A worklist of nodes with a pre-order each has one as a whole. -/
theorem exists_visits_of_forall (work : List Nat)
    (h : ∀ i ∈ work, ∃ below, Visits next (next i) below) :
    ∃ taken, Visits next work taken := by
  induction work with
  | nil => exact ⟨[], .nil⟩
  | cons i work ih =>
      obtain ⟨below, hbelow⟩ := h i List.mem_cons_self
      obtain ⟨after, hafter⟩ := ih fun j hj => h j (List.mem_cons_of_mem i hj)
      exact ⟨_, .cons hbelow hafter⟩

/-- A walk along which a height falls has a pre-order. -/
theorem exists_visits {height : Nat → Nat}
    (hfall : ∀ i, ∀ c ∈ next i, height c < height i) (work : List Nat) :
    ∃ taken, Visits next work taken := by
  have hbelow : ∀ n i, height i < n → ∃ below, Visits next (next i) below := by
    intro n
    induction n with
    | zero => intro i hi; omega
    | succ n ih =>
        intro i hi
        refine exists_visits_of_forall _ fun c hc => ih c ?_
        have hlt := hfall i c hc
        omega
  exact exists_visits_of_forall work fun i _ => hbelow (height i + 1) i (by omega)

/-- The pre-order lists what can be reached. -/
theorem mem_visits_iff (h : Visits next work taken) :
    j ∈ taken ↔ ∃ i ∈ work, Leads next i j := by
  induction h with
  | nil => simp
  | @cons i below work after _ _ ihbelow ihafter =>
      have hi : Leads next i j ↔ j = i ∨ j ∈ below := by
        rw [leads_iff, ihbelow, eq_comm]
      simp only [List.mem_cons, List.mem_append, exists_eq_or_imp, hi, ihafter, or_assoc]

/-- A walk that steps in full where it steps at all does so where it gets anywhere. -/
theorem next_eq_of_mem {full : Nat → List Nat} (hpart : ∀ i, next i = [] ∨ next i = full i)
    (hc : c ∈ next i) : next i = full i :=
  (hpart i).resolve_left (List.ne_nil_of_mem hc)

/-- Of a walk that steps in full where it steps at all, the pre-order is part of the full one. -/
theorem visits_sublist {full : Nat → List Nat} (hpart : ∀ i, next i = [] ∨ next i = full i)
    (h : Visits next work taken) (hfull : Visits full work all) : taken.Sublist all := by
  induction h generalizing all with
  | nil => exact List.nil_sublist _
  | @cons i below work after hbelow _ ihbelow ihafter =>
      cases hfull with
      | cons hfullBelow hfullAfter =>
          refine (List.Sublist.append ?_ (ihafter hfullAfter)).cons_cons i
          cases hpart i with
          | inl hnil =>
              rw [hnil] at hbelow
              cases hbelow
              exact List.nil_sublist _
          | inr heq => exact ihbelow (heq ▸ hfullBelow)

/-- No node can be reached from two of these. -/
def Apart (next : Nat → List Nat) (work : List Nat) : Prop :=
  work.Pairwise fun a b => ∀ j, Leads next a j → ¬ Leads next b j

/-- The pre-order lists nothing twice, if a node is not led back to and its ways on stay
apart. -/
theorem nodup_of_visits (hacyclic : ∀ i, ∀ c ∈ next i, ¬ Leads next c i)
    (hapart : ∀ i, Apart next (next i)) (h : Visits next work taken) (hwork : Apart next work) :
    taken.Nodup := by
  induction h with
  | nil => exact List.nodup_nil
  | @cons i below work after hbelow hafter ihbelow ihafter =>
      obtain ⟨hhead, hrest⟩ := List.pairwise_cons.mp hwork
      -- a node below `i` and a node behind it are told apart by the heads that lead to them
      have hdisjoint : ∀ j, Leads next i j → j ∉ after := by
        intro j hij hj
        obtain ⟨b, hb, hbj⟩ := (mem_visits_iff hafter).mp hj
        exact hhead b hb j hij hbj
      have hbelow_leads : ∀ j ∈ below, Leads next i j := fun j hj =>
        leads_iff.mpr (.inr ((mem_visits_iff hbelow).mp hj))
      rw [List.nodup_cons, List.mem_append]
      constructor
      · rintro (hi | hi)
        · obtain ⟨c, hc, hci⟩ := (mem_visits_iff hbelow).mp hi
          exact hacyclic i c hc hci
        · exact hdisjoint i .refl hi
      · refine List.nodup_append.mpr ⟨ihbelow (hapart i), ihafter hrest, ?_⟩
        rintro j hj _ hj' rfl
        exact hdisjoint j (hbelow_leads j hj) hj'

/-- The order of the nodes that a walk has yet to take makes no difference to what it takes. -/
theorem visits_of_perm_work (h : Visits next work taken) (hwork : work.Perm work') :
    ∃ taken', Visits next work' taken' ∧ taken.Perm taken' := by
  induction hwork generalizing taken with
  | nil => exact ⟨taken, h, .refl _⟩
  | cons i _ ih =>
      cases h with
      | @cons _ below _ after hbelow hafter =>
          obtain ⟨after', hafter', hperm⟩ := ih hafter
          exact ⟨_, .cons hbelow hafter', (hperm.append_left below).cons i⟩
  | swap i j work =>
      cases h with
      | @cons _ belowJ _ _ hbelowJ hrest =>
          cases hrest with
          | @cons _ belowI _ after hbelowI hafter =>
              refine ⟨_, .cons hbelowI (.cons hbelowJ hafter), ?_⟩
              have hperm : ((j :: belowJ) ++ (i :: belowI)).Perm ((i :: belowI) ++ (j :: belowJ)) :=
                List.perm_append_comm
              simpa using hperm.append_right after
  | trans _ _ ihfirst ihsecond =>
      obtain ⟨taken₁, htaken₁, hperm₁⟩ := ihfirst h
      obtain ⟨taken₂, htaken₂, hperm₂⟩ := ihsecond htaken₁
      exact ⟨taken₂, htaken₂, hperm₁.trans hperm₂⟩

/-- Nor does the order in which the nodes to go on to are given. -/
theorem visits_of_perm_next {next' : Nat → List Nat} (hnext : ∀ i, (next i).Perm (next' i))
    (h : Visits next work taken) : ∃ taken', Visits next' work taken' ∧ taken.Perm taken' := by
  induction h with
  | nil => exact ⟨[], .nil, .refl _⟩
  | @cons i _ _ _ _ _ ihbelow ihafter =>
      obtain ⟨below, hbelow, hbelowPerm⟩ := ihbelow
      obtain ⟨after, hafter, hafterPerm⟩ := ihafter
      obtain ⟨below', hbelow', hbelowPerm'⟩ := visits_of_perm_work hbelow (hnext i)
      exact ⟨_, .cons hbelow' hafter,
        ((hbelowPerm.trans hbelowPerm').append hafterPerm).cons i⟩

/-! ## The worklist -/

theorem length_traverse_le (next : Nat → List Nat) (bound : Nat) (work : List Nat) :
    (traverse next bound work).1.length ≤ bound := by
  induction bound generalizing work with
  | zero => exact Nat.le_refl 0
  | succ bound ih =>
      cases work with
      | nil => exact Nat.zero_le _
      | cons i work => exact Nat.succ_le_succ (ih _)

/-- The worklist asks only of the nodes it gets to where to go on. -/
theorem traverse_congr {next' : Nat → List Nat} {P : Nat → Prop}
    (hnext : ∀ i, P i → next i = next' i) (hclosed : ∀ i, P i → ∀ c ∈ next i, P c)
    (bound : Nat) {work : List Nat} (hwork : ∀ i ∈ work, P i) :
    traverse next bound work = traverse next' bound work ∧
      ∀ i ∈ (traverse next bound work).1, P i := by
  induction bound generalizing work with
  | zero => exact ⟨rfl, fun i hi => by cases hi⟩
  | succ bound ih =>
      cases work with
      | nil => exact ⟨rfl, fun i hi => by cases hi⟩
      | cons i work =>
          obtain ⟨hi, hrest⟩ := List.forall_mem_cons.mp hwork
          have hwork' : ∀ j ∈ next i ++ work, P j := fun j hj =>
            (List.mem_append.mp hj).elim (hclosed i hi j) (hrest j)
          obtain ⟨heq, hmem⟩ := ih hwork'
          rw [traverse, traverse, ← hnext i hi, ← heq]
          exact ⟨rfl, List.forall_mem_cons.mpr ⟨hi, hmem⟩⟩

/-- A worklist whose bound is large enough takes the pre-order and leaves nothing. -/
theorem traverse_eq_of_visits {bound : Nat} (h : Visits next work taken)
    (hbound : taken.length ≤ bound) : traverse next bound work = (taken, []) := by
  induction bound generalizing work taken with
  | zero =>
      rw [Nat.le_zero, List.length_eq_zero_iff] at hbound
      subst hbound
      cases h
      rfl
  | succ bound ih =>
      cases h with
      | nil => rfl
      | cons hbelow hafter =>
          have hlen := Nat.le_of_succ_le_succ hbound
          rw [traverse, ih (visits_append hbelow hafter) hlen]

/-! ## The climb -/

theorem climb_succ_of_none {bound : Nat} (h : parent i = none) :
    climb parent (bound + 1) i = [] := by
  rw [climb, h]

theorem climb_succ_of_some {bound : Nat} (h : parent i = some p) :
    climb parent (bound + 1) i = p :: climb parent bound p := by
  rw [climb, h]

/-- Beyond the depth of a node the bound of its climb makes no difference. -/
theorem climb_eq_of_depth_lt {depth : Nat → Nat}
    (hdepth : ∀ i p, parent i = some p → depth p < depth i) {a b : Nat}
    (ha : depth i < a) (hb : depth i < b) : climb parent a i = climb parent b i := by
  induction a generalizing b i with
  | zero => omega
  | succ a ih =>
      obtain ⟨b, rfl⟩ : ∃ b', b = b' + 1 := ⟨b - 1, by omega⟩
      cases hp : parent i with
      | none => rw [climb_succ_of_none hp, climb_succ_of_none hp]
      | some p =>
          have hlt := hdepth i p hp
          rw [climb_succ_of_some hp, climb_succ_of_some hp,
            ih (i := p) (b := b) (by omega) (by omega)]

end InstallerBrowser
