import InstallerBrowser.Proofs.Tree.Listing
import Mathlib.Data.Set.Finite.List
import Mathlib.Order.Preorder.Finite

/-!
# InstallerBrowser.Proofs.Tree.Cycles

The entry by which a cycle is told.

Where parents never come to an end they come to a cycle, since a listing is finite
(`exists_cycle_above`); so an entry without a lineage is on a cycle or hangs off one.  A listing with
such entries is rejected by the first of them in its order (`firstStray_of_build`), be it on a cycle
or not: the key that is told lies on a cycle exactly if an entry on a cycle is listed before all that
hang off one (`cycle_of_build`).
-/

namespace InstallerBrowser

/-! ## Following parents -/

/-- The entry with a key names another key as that of its parent. -/
def NamesParent (entries : List Entry) (key parent : NodeKey) : Prop :=
  ∃ e ∈ entries, e.node = key ∧ e.parentId = some parent

/-- Following parents from the entry with a key leads back to it. -/
def OnCycle (entries : List Entry) (key : NodeKey) : Prop :=
  Relation.TransGen (NamesParent entries) key key

/-- Following parents from the entry with a key leads to a cycle, on which it is not itself. -/
def HangsOff (entries : List Entry) (key : NodeKey) : Prop :=
  ¬ OnCycle entries key ∧
    ∃ k, Relation.ReflTransGen (NamesParent entries) key k ∧ OnCycle entries k

/-- The entry at a place is the first in the order of the listing of which something holds. -/
structure FirstAt (entries : List Entry) (P : Entry → Prop) (i : Nat) (e : Entry) : Prop where
  getElem? : entries[i]? = some e
  holds : P e
  before : ∀ j < i, ∀ p, entries[j]? = some p → ¬ P p

/-- Parents lead on from an entry without end. -/
def Groundless (entries : List Entry) (e : Entry) : Prop := ∀ above, ¬ Lineage entries e above

variable {entries : List Entry} {e : Entry} {above : List Entry} {key k : NodeKey} {i j : Nat}

namespace Lineage

/-- A parent has a shorter lineage. -/
theorem exists_shorter (hnodup : (entries.map (·.node)).Nodup) (h : Lineage entries e above)
    (he : e ∈ entries) (hparent : NamesParent entries e.node k) :
    ∃ p ∈ entries, p.node = k ∧ ∃ above', Lineage entries p above' ∧
      above'.length < above.length := by
  obtain ⟨e', he', hkey, hparent⟩ := hparent
  obtain rfl : e' = e := List.inj_on_of_nodup_map hnodup he' he hkey
  cases h with
  | root hnone => cases hnone.symm.trans hparent
  | @child _ p above' hp hmem habove =>
      exact ⟨p, hmem, Option.some.inj (hp.symm.trans hparent), above', habove, Nat.lt_succ_self _⟩

theorem exists_shorter_of_transGen (hnodup : (entries.map (·.node)).Nodup)
    (h : Lineage entries e above) (hreach : Relation.TransGen (NamesParent entries) e.node k)
    (he : e ∈ entries) :
    ∃ p ∈ entries, p.node = k ∧ ∃ above', Lineage entries p above' ∧
      above'.length < above.length := by
  induction hreach with
  | single hparent => exact h.exists_shorter hnodup he hparent
  | tail _ hparent ih =>
      obtain ⟨p, hp, rfl, above', habove, hlt⟩ := ih
      obtain ⟨q, hq, hkey, above'', habove', hlt'⟩ := habove.exists_shorter hnodup hp hparent
      exact ⟨q, hq, hkey, above'', habove', hlt'.trans hlt⟩

/-- An entry with a lineage is not on a cycle. -/
theorem not_onCycle (hnodup : (entries.map (·.node)).Nodup) (he : e ∈ entries)
    (h : Lineage entries e above) : ¬ OnCycle entries e.node := by
  -- along the cycle the lineage would get shorter and shorter
  generalize hn : above.length = n
  induction n using Nat.strongRecOn generalizing e above with
  | ind n ih =>
      intro hcycle
      obtain ⟨p, hp, hkey, above', habove, hlt⟩ := h.exists_shorter_of_transGen hnodup hcycle he
      exact ih _ (hn ▸ hlt) hp habove rfl (by rwa [hkey])

/-- Nor does it hang off one. -/
theorem not_hangsOff (hnodup : (entries.map (·.node)).Nodup) (he : e ∈ entries)
    (h : Lineage entries e above) : ¬ HangsOff entries e.node := by
  rintro ⟨hnot, k, hreach, hcycle⟩
  rcases Relation.reflTransGen_iff_eq_or_transGen.mp hreach with rfl | hreach
  · exact hnot hcycle
  · obtain ⟨p, hp, rfl, _, habove, _⟩ := h.exists_shorter_of_transGen hnodup hreach he
    exact habove.not_onCycle hnodup hp hcycle

end Lineage

/-- An entry without a lineage has a parent without one. -/
theorem Groundless.exists_parent
    (hlisted : ∀ e ∈ entries, ∀ key, e.parentId = some key → ∃ p ∈ entries, p.node = key)
    (he : e ∈ entries) (h : Groundless entries e) :
    ∃ p ∈ entries, Groundless entries p ∧ NamesParent entries e.node p.node := by
  cases hparent : e.parentId with
  | none => exact absurd (.root hparent) (h [])
  | some key =>
      obtain ⟨p, hp, rfl⟩ := hlisted e he key hparent
      exact ⟨p, hp, fun above habove => h (p :: above) (.child hparent hp habove),
        e, he, rfl, hparent⟩

/-- Of finitely many things of which each leads to another, each leads to one that leads back to
itself. -/
theorem exists_transGen_self {α : Type*} {r : α → α → Prop} {s : Set α} (hs : s.Finite)
    (hnext : ∀ a ∈ s, ∃ b ∈ s, r a b) {a : α} (ha : a ∈ s) :
    ∃ b, Relation.ReflTransGen r a b ∧ Relation.TransGen r b b := by
  have : Nonempty α := ⟨a⟩
  choose! next hmem hnext using hnext
  have hmem : ∀ n, next^[n] a ∈ s := fun n => Set.MapsTo.iterate hmem n ha
  have hreach : ∀ m n, Relation.ReflTransGen r (next^[m] a) (next^[n + m] a) := by
    intro m n
    induction n with
    | zero => rw [Nat.zero_add]
    | succ n ih =>
        rw [Nat.add_right_comm, Function.iterate_succ_apply']
        exact ih.tail (hnext _ (hmem _))
  obtain ⟨m, n, hlt, hsame⟩ := hs.exists_lt_map_eq_of_forall_mem hmem
  obtain ⟨d, rfl⟩ : ∃ d, n = d + (m + 1) := ⟨n - (m + 1), by omega⟩
  refine ⟨next^[m] a, hreach 0 m, .head' ?_ (hsame ▸ hreach (m + 1) d)⟩
  rw [Function.iterate_succ_apply']
  exact hnext _ (hmem m)

/-- Parents that lead on without end lead to a cycle. -/
theorem Groundless.exists_cycle_above
    (hlisted : ∀ e ∈ entries, ∀ key, e.parentId = some key → ∃ p ∈ entries, p.node = key)
    (he : e ∈ entries) (h : Groundless entries e) :
    ∃ k, Relation.ReflTransGen (NamesParent entries) e.node k ∧ OnCycle entries k := by
  have hfinite : {e | e ∈ entries ∧ Groundless entries e}.Finite :=
    entries.finite_toSet.subset fun _ h => h.1
  obtain ⟨p, hreach, hreturn⟩ := exists_transGen_self
    (r := fun a b => NamesParent entries a.node b.node) hfinite
    (fun a ⟨ha, hnone⟩ =>
      let ⟨p, hp, hnone', hparent⟩ := hnone.exists_parent hlisted ha
      ⟨p, ⟨hp, hnone'⟩, hparent⟩)
    ⟨he, h⟩
  exact ⟨p.node, hreach.lift Entry.node fun _ _ h => h, hreturn.lift Entry.node fun _ _ h => h⟩

/-! ## The entry that is told -/

namespace Hierarchy

variable {parents : List (Option Nat)}

/-- What is in the generations has a lineage. -/
theorem exists_lineage_of_mem_levels {main : Option Nat}
    (hlink : link (entries.map (·.node)) 0 none entries = .ok (parents, main))
    (he : entries[i]? = some e) (hi : i ∈ (levels parents).flatten) :
    ∃ above, Lineage entries e above := by
  obtain ⟨l, hl, hil⟩ := List.mem_flatten.mp hi
  obtain ⟨n, hn⟩ := List.mem_iff_getElem?.mp hl
  obtain ⟨above, habove, _⟩ :=
    lineage_of_hasAncestors hlink (hasAncestors_of_mem_levels hn hil).2 he
  exact ⟨above, habove⟩

/-- A cycle is told by the first entry whose parents lead on without end, in a listing of distinct
keys in which all parents are listed. -/
theorem firstStray_of_build (hb : build entries = .error (.cycle key)) :
    (entries.map (·.node)).Nodup ∧
      (∀ e ∈ entries, ∀ key, e.parentId = some key → ∃ p ∈ entries, p.node = key) ∧
      ∃ i e, FirstAt entries (Groundless entries) i e ∧ e.node = key := by
  have hbuild := buildResult entries
  generalize hresult : build entries = result at hbuild
  rw [hb] at hresult
  cases hbuild with
  | duplicate _ | built _ => cases hresult
  | unlinked hlink =>
      cases hresult
      rcases link_eq_error hlink with ⟨_, _, _, _, _, hfault⟩ | ⟨_, _, _, _, hfault⟩ | ⟨_, hfault⟩
      all_goals cases hfault
  | @stray parents _ i e hnodup hlink he hstray hbefore =>
      rw [Except.error.injEq, ListingFault.cycle.injEq] at hresult
      refine ⟨hnodup, fun p hp key hkey => ?_, i, e, ⟨he, ?_, fun j hj p hp hnone => ?_⟩,
        hresult.symm⟩
      · obtain ⟨c, hc⟩ := List.mem_iff_getElem?.mp hp
        rcases parent_cases_of_link hlink hc with ⟨hnone, _⟩ | ⟨q, c', hparent, hq, _⟩
        · cases hnone.symm.trans hkey
        · exact ⟨q, List.mem_of_getElem? hq, Option.some.inj (hparent.symm.trans hkey)⟩
      · exact not_lineage_of_not_mem_levels hnodup hlink he hstray
      · obtain ⟨above, habove⟩ := exists_lineage_of_mem_levels hlink hp (hbefore j hj)
        exact hnone above habove

end Hierarchy

namespace SelectionTree

/-- **What a rejected cycle is told by**: the key is that of the first entry whose parents lead on
without end, and they lead from it to a cycle.  It lies on a cycle itself exactly if an entry on a
cycle is listed before all entries that hang off one. -/
theorem cycle_of_build (hb : build entries = .error (.cycle key)) :
    (∃ i e, FirstAt entries (Groundless entries) i e ∧ e.node = key) ∧
      (∃ k, Relation.ReflTransGen (NamesParent entries) key k ∧ OnCycle entries k) ∧
      (OnCycle entries key ↔ ∃ (i : Nat) (e : Entry), entries[i]? = some e ∧
        OnCycle entries e.node ∧ ∀ j < i, ∀ p, entries[j]? = some p → ¬ HangsOff entries p.node) := by
  have hb' : Hierarchy.build entries = .error (.cycle key) := by
    rw [build] at hb
    cases hh : Hierarchy.build entries with
    | ok h => rw [hh] at hb; cases hb
    | error fault => rw [hh] at hb; cases hb; rfl
  obtain ⟨hnodup, hlisted, i, e, hfirst, rfl⟩ := Hierarchy.firstStray_of_build hb'
  have he : e ∈ entries := List.mem_of_getElem? hfirst.getElem?
  obtain ⟨k, hreach, hcycle⟩ := hfirst.holds.exists_cycle_above hlisted he
  -- what is listed before has a lineage
  have hbefore : ∀ j < i, ∀ p, entries[j]? = some p →
      ¬ OnCycle entries p.node ∧ ¬ HangsOff entries p.node := by
    intro j hj p hp
    obtain ⟨above, habove⟩ := not_forall_not.mp (hfirst.before j hj p hp)
    have hmem := List.mem_of_getElem? hp
    exact ⟨habove.not_onCycle hnodup hmem, habove.not_hangsOff hnodup hmem⟩
  refine ⟨⟨i, e, hfirst, rfl⟩, ⟨k, hreach, hcycle⟩, fun hon => ?_, ?_⟩
  · exact ⟨i, e, hfirst.getElem?, hon, fun j hj p hp => (hbefore j hj p hp).2⟩
  · rintro ⟨i', e', he', hon, hfree⟩
    by_contra hnot
    rcases Nat.lt_trichotomy i' i with hlt | rfl | hlt
    · exact (hbefore i' hlt e' he').1 hon
    · obtain rfl := Option.some.inj (he'.symm.trans hfirst.getElem?)
      exact hnot hon
    · exact hfree i hlt e hfirst.getElem? ⟨hnot, k, hreach, hcycle⟩

/-- Two directories that are each other's parent, with a file below one of them. -/
def loopListing : List Entry :=
  [ { node := 1, name := "apart" }
  , { node := 8, name := "there", parentId := some 9 }
  , { node := 9, name := "back", parentId := some 8 }
  , { node := 7, fileId := some 3, name := "below", parentId := some 8 } ]

theorem onCycle_loopListing : OnCycle loopListing 8 :=
  .tail (.single ⟨_, List.mem_cons_of_mem _ List.mem_cons_self, rfl, rfl⟩)
    ⟨_, List.mem_cons_of_mem _ (List.mem_cons_of_mem _ List.mem_cons_self), rfl, rfl⟩

/-- With the file listed last, the key that is told lies on the cycle. -/
theorem cycle_of_build_loopListing : build loopListing = .error (.cycle 8) ∧
    OnCycle loopListing 8 ∧
    ∃ (i : Nat) (e : Entry), loopListing[i]? = some e ∧ OnCycle loopListing e.node ∧
      ∀ j < i, ∀ p, loopListing[j]? = some p → ¬ HangsOff loopListing p.node := by
  have hb : build loopListing = .error (.cycle 8) := rfl
  exact ⟨hb, onCycle_loopListing, (cycle_of_build hb).2.2.mp onCycle_loopListing⟩

/-- With the file listed first, it is told itself, though no entry has it as its parent. -/
theorem not_onCycle_fileFirst :
    build loopListing.reverse = .error (.cycle 7) ∧
      (ListingFault.cycle 7).message = "cycle detected at entry 7" ∧
      ¬ OnCycle loopListing.reverse 7 := by
  refine ⟨rfl, rfl, fun hcycle => ?_⟩
  obtain ⟨_, _, e, he, _, hparent⟩ := Relation.TransGen.tail'_iff.mp hcycle
  have hnone : ∀ e ∈ loopListing.reverse, e.parentId ≠ some 7 := by decide
  exact hnone e he hparent

end SelectionTree

end InstallerBrowser
