import InstallerBrowser.Proofs.Tree.Runs
import InstallerBrowser.Session.Basic
import Mathlib.Data.List.Sort

/-!
# InstallerBrowser.Proofs.Tree.Listing

Which listings have a tree, and what the tree shows of them.

A listing is a forest if its keys are distinct, its parents listed, all its entries below one
without a parent, and at most one entry, without a parent, is the main root (`IsForest`).  None of
this mentions how `build` goes about it: the generations that `build` counts off from the roots
hold an entry exactly if its `Lineage` ends, so what they miss is what lies on a cycle or below
one.  `builds_iff_isForest` says that the listings with a tree are the forests, that the tree holds
the listing (`Represents`), and that the fault told of any other listing is true of it
(`ListingFault.TrueOf`).
-/

namespace InstallerBrowser

/-! ## Listings -/

/-- The entries that parents lead to from an entry, the nearest first, up to one without a
parent. -/
inductive Lineage (entries : List Entry) : Entry → List Entry → Prop
  | root {e : Entry} : e.parentId = none → Lineage entries e []
  | child {e p : Entry} {above : List Entry} : e.parentId = some p.node → p ∈ entries →
      Lineage entries p above → Lineage entries e (p :: above)

/-- How many entries of a listing are marked as the main root. -/
def mainRootCount (entries : List Entry) : Nat := entries.countP (·.isMainRoot)

/-- A listing of a forest. -/
structure IsForest (entries : List Entry) : Prop where
  nodup_keys : (entries.map (·.node)).Nodup
  parent_listed : ∀ e ∈ entries, ∀ key, e.parentId = some key → ∃ p ∈ entries, p.node = key
  grounded : ∀ e ∈ entries, ∃ above, Lineage entries e above
  mainRootCount_le : mainRootCount entries ≤ 1
  root_of_isMainRoot : ∀ e ∈ entries, e.isMainRoot = true → e.parentId = none

/-- What a fault says of a listing. -/
def ListingFault.TrueOf (entries : List Entry) : ListingFault → Prop
  | .duplicateKey key => 2 ≤ (entries.map (·.node)).count key
  | .missingParent key parent =>
    (∃ e ∈ entries, e.node = key ∧ e.parentId = some parent) ∧ ∀ p ∈ entries, p.node ≠ parent
  | .mainRootWithParent key =>
    ∃ e ∈ entries, e.node = key ∧ e.isMainRoot = true ∧ e.parentId ≠ none
  | .secondMainRoot => 2 ≤ mainRootCount entries
  | .cycle key => ∃ e ∈ entries, e.node = key ∧ ∀ above, ¬ Lineage entries e above

variable {entries : List Entry} {keys : List NodeKey} {parents : List (Option Nat)} {c i : Nat}
  {e p : Entry} {above : List Entry} {h : Hierarchy} {fault : ListingFault}

/-- No fault is true of a forest. -/
theorem IsForest.not_trueOf (h : IsForest entries) (fault : ListingFault) :
    ¬ fault.TrueOf entries := by
  cases fault with
  | duplicateKey key =>
      intro htwo
      have hone := List.nodup_iff_count_le_one.mp h.nodup_keys key
      exact Nat.not_le_of_lt htwo hone
  | missingParent key parent =>
      rintro ⟨⟨e, he, _, hparent⟩, hnone⟩
      obtain ⟨p, hp, hkey⟩ := h.parent_listed e he parent hparent
      exact hnone p hp hkey
  | mainRootWithParent key =>
      rintro ⟨e, he, _, hmain, hparent⟩
      exact hparent (h.root_of_isMainRoot e he hmain)
  | secondMainRoot =>
      intro htwo
      exact Nat.not_le_of_lt htwo h.mainRootCount_le
  | cycle key =>
      rintro ⟨e, he, _, hnone⟩
      obtain ⟨above, habove⟩ := h.grounded e he
      exact hnone above habove

namespace Hierarchy

/-! ## Keys and links -/

/-- A key that is found a second time was met before, or is there twice. -/
theorem le_count_of_firstDuplicate? {seen : List NodeKey} {key : NodeKey}
    (h : firstDuplicate? seen keys = some key) :
    2 ≤ (if key ∈ seen then 1 else 0) + keys.count key := by
  induction keys generalizing seen with
  | nil => cases h
  | cons first rest ih =>
      rw [firstDuplicate?] at h
      split at h
      · next hseen =>
          cases h
          rw [if_pos hseen, List.count_cons_self]
          omega
      · next hseen =>
          have htwo := ih h
          by_cases heq : first = key
          · subst heq
            rw [if_pos List.mem_cons_self] at htwo
            rw [if_neg hseen, List.count_cons_self]
            omega
          · rw [List.count_cons_of_ne heq]
            simpa [Ne.symm heq] using htwo

theorem linkParent_eq_error (h : linkParent keys e = .error fault) :
    ∃ key, e.parentId = some key ∧ key ∉ keys ∧ fault = .missingParent e.node key := by
  rw [linkParent] at h
  split at h
  · cases h
  · next key hkey =>
      split at h
      · cases h
      · next hidx =>
          cases h
          exact ⟨key, hkey, List.idxOf?_eq_none_iff.mp hidx, rfl⟩

/-- What `link` gives up on: a parent that is not listed, a main root with a parent, or a main root
behind another. -/
theorem link_eq_error {before : Option Nat} (h : link keys i before entries = .error fault) :
    (∃ e ∈ entries, ∃ key, e.parentId = some key ∧ key ∉ keys ∧
        fault = .missingParent e.node key) ∨
      (∃ e ∈ entries, e.isMainRoot = true ∧ e.parentId ≠ none ∧
        fault = .mainRootWithParent e.node) ∨
      2 ≤ before.toList.length + mainRootCount entries ∧ fault = .secondMainRoot := by
  induction entries generalizing i before with
  | nil => rw [link] at h; cases h
  | cons e rest ih =>
      have hstep := linkStep keys i before e rest
      rw [h] at hstep
      cases hstep with
      | missing hparent => exact .inl ⟨e, List.mem_cons_self, linkParent_eq_error hparent⟩
      | lowMainRoot hmark hparent =>
          refine .inr (.inl ⟨e, List.mem_cons_self, hmark, ?_, rfl⟩)
          rcases linkParent_cases hparent with ⟨_, hnone⟩ | ⟨key, _, hkey, _, _⟩
          · cases hnone
          · rw [hkey]
            exact Option.some_ne_none key
      | second hmark hbefore =>
          refine .inr (.inr ⟨?_, rfl⟩)
          rw [mainRootCount, List.countP_cons_of_pos hmark, hbefore, Option.toList_some,
            List.length_singleton]
          omega
      | later hfound hlink =>
          rcases ih hlink with ⟨e', he', hfault⟩ | ⟨e', he', hfault⟩ | ⟨htwo, rfl⟩
          · exact .inl ⟨e', List.mem_cons_of_mem e he', hfault⟩
          · exact .inr (.inl ⟨e', List.mem_cons_of_mem e he', hfault⟩)
          · refine .inr (.inr ⟨?_, rfl⟩)
            rcases hfound with ⟨hmark, rfl⟩ | ⟨hmark, rfl, rfl⟩
            · simpa [mainRootCount, hmark] using htwo
            · simpa [mainRootCount, hmark, Nat.add_comm] using htwo

/-! ## Lineages -/

/-- An entry with a lineage is at a place with as many ancestors. -/
theorem hasAncestors_of_lineage {main : Option Nat} (hnodup : (entries.map (·.node)).Nodup)
    (hlink : link (entries.map (·.node)) 0 none entries = .ok (parents, main))
    (habove : Lineage entries e above) (he : entries[c]? = some e) :
    HasAncestors (fun c => parents[c]?.join) above.length c := by
  induction habove generalizing c with
  | root hnone =>
      rcases parent_cases_of_link hlink he with ⟨_, hget⟩ | ⟨p, i, hparent, _⟩
      · exact .root (by rw [hget]; rfl)
      · rw [hnone] at hparent; cases hparent
  | @child e p above hparent hp _ ih =>
      rcases parent_cases_of_link hlink he with ⟨hnone, _⟩ | ⟨p', i, hparent', hi, hget⟩
      · rw [hnone] at hparent; cases hparent
      · have hkey : p'.node = p.node := Option.some.inj (hparent'.symm.trans hparent)
        obtain rfl : p' = p := List.inj_on_of_nodup_map hnodup (List.mem_of_getElem? hi) hp hkey
        exact .child (by rw [hget]; rfl) (ih hi)

/-- The entry at a place with ancestors has a lineage of as many entries. -/
theorem lineage_of_hasAncestors {main : Option Nat}
    (hlink : link (entries.map (·.node)) 0 none entries = .ok (parents, main))
    (hancestors : HasAncestors (fun c => parents[c]?.join) k c) (he : entries[c]? = some e) :
    ∃ above, Lineage entries e above ∧ above.length = k := by
  induction hancestors generalizing e with
  | root hjoin =>
      rcases parent_cases_of_link hlink he with ⟨hnone, _⟩ | ⟨p, i, _, _, hget⟩
      · exact ⟨[], .root hnone, rfl⟩
      · rw [hget] at hjoin; cases hjoin
  | child hjoin _ ih =>
      rcases parent_cases_of_link hlink he with ⟨_, hget⟩ | ⟨p, i, hparent, hi, hget⟩
      · rw [hget] at hjoin; cases hjoin
      · rw [hget] at hjoin
        cases hjoin
        obtain ⟨above, habove, rfl⟩ := ih hi
        exact ⟨p :: above, .child hparent (List.mem_of_getElem? hi) habove, rfl⟩

/-- What the generations miss has no lineage. -/
theorem not_lineage_of_not_mem_levels {main : Option Nat} (hnodup : (entries.map (·.node)).Nodup)
    (hlink : link (entries.map (·.node)) 0 none entries = .ok (parents, main))
    (he : entries[c]? = some e) (hc : c ∉ (levels parents).flatten) (above : List Entry) :
    ¬ Lineage entries e above := by
  intro habove
  have hancestors := hasAncestors_of_lineage hnodup hlink habove he
  have hlt : c < parents.length :=
    length_of_link hlink ▸ (List.getElem?_eq_some_iff.mp he).choose
  have hrange : ∀ c p, parents[c]?.join = some p → p < parents.length := fun c p hp =>
    parent_lt_of_link hlink (Option.join_eq_some_iff.mp hp)
  have hroots : ∀ r < parents.length, parents[r]?.join = none → r ∈ withParent parents none := by
    intro r hr hjoin
    rw [mem_withParent_iff, List.getElem?_eq_getElem hr]
    rw [List.getElem?_eq_getElem hr] at hjoin
    exact congrArg some hjoin
  have hchildren : ∀ c p, parents[c]?.join = some p →
      p < parents.length ∧ c ∈ withParent parents (some p) := fun c p hp =>
    ⟨hrange c p hp, mem_withParent_iff.mpr (Option.join_eq_some_iff.mp hp)⟩
  obtain ⟨l, hl, hcl⟩ :=
    hancestors.mem_generations hroots hchildren hlt (hancestors.lt_size hlt hrange)
  exact hc (List.mem_flatten.mpr ⟨l, List.mem_of_getElem? hl, hcl⟩)

/-- The fault that building a tree tells of is true of the listing. -/
theorem trueOf_of_build_eq_error (hb : build entries = .error fault) : fault.TrueOf entries := by
  have hbuild := buildResult entries
  rw [hb] at hbuild
  cases hbuild with
  | duplicate hkey =>
      have htwo := le_count_of_firstDuplicate? hkey
      rwa [if_neg List.not_mem_nil, Nat.zero_add] at htwo
  | unlinked hlink =>
      rcases link_eq_error hlink with ⟨e, he, key, hkey, hmissing, rfl⟩ |
        ⟨e, he, hmark, hparent, rfl⟩ | ⟨htwo, rfl⟩
      · refine ⟨⟨e, he, rfl, hkey⟩, fun p hp heq => hmissing ?_⟩
        exact List.mem_map.mpr ⟨p, hp, heq⟩
      · exact ⟨e, he, rfl, hmark, hparent⟩
      · rwa [Option.toList_none, List.length_nil, Nat.zero_add] at htwo
  | @stray _ _ _ e hnodup hlink he hstray _ =>
      exact ⟨e, List.mem_of_getElem? he, rfl, not_lineage_of_not_mem_levels hnodup hlink he hstray⟩

namespace Built

theorem lineage (hb : Built entries parents h) (he : entries[c]? = some e) :
    ∃ above, Lineage entries e above ∧ above.length = h.depth c := by
  have hc : c < h.size := hb.size_eq ▸ (List.getElem?_eq_some_iff.mp he).choose
  have hancestors := (hb.hasAncestors_depth hc).2
  rw [funext hb.parent_eq] at hancestors
  exact lineage_of_hasAncestors hb.linked hancestors he

theorem isForest (hb : Built entries parents h) : IsForest entries where
  nodup_keys := hb.nodup_keys
  parent_listed := by
    intro e he key hkey
    obtain ⟨c, hc⟩ := List.mem_iff_getElem?.mp he
    rcases parent_cases_of_link hb.linked hc with ⟨hnone, _⟩ | ⟨p, i, hparent, hi, _⟩
    · rw [hnone] at hkey; cases hkey
    · exact ⟨p, List.mem_of_getElem? hi, Option.some.inj (hparent.symm.trans hkey)⟩
  grounded := by
    intro e he
    obtain ⟨c, hc⟩ := List.mem_iff_getElem?.mp he
    obtain ⟨above, habove, _⟩ := hb.lineage hc
    exact ⟨above, habove⟩
  mainRootCount_le := by
    have hcount := (mainRoot_of_link hb.linked).2.1
    rwa [Option.toList_none, List.length_nil, Nat.zero_add] at hcount
  root_of_isMainRoot := (mainRoot_of_link hb.linked).2.2

theorem key_of_getElem? (hb : Built entries parents h) (he : entries[c]? = some e) :
    h.key c = e.node := by
  obtain ⟨hc, rfl⟩ := List.getElem?_eq_some_iff.mp he
  exact hb.key_eq hc

theorem indexOf?_node (hb : Built entries parents h) (hw : h.WellFormed)
    (he : entries[c]? = some e) : h.indexOf? e.node = some c :=
  hw.indexOf?_eq_some_iff.mpr
    ⟨hb.size_eq ▸ (List.getElem?_eq_some_iff.mp he).choose, hb.key_of_getElem? he⟩

theorem parent_eq_none_iff (hb : Built entries parents h) (he : entries[c]? = some e) :
    parents[c]? = some none ↔ e.parentId = none := by
  rcases parent_cases_of_link hb.linked he with ⟨hnone, hget⟩ | ⟨p, i, hparent, _, hget⟩
  · exact iff_of_true hget hnone
  · rw [hparent, hget]
    exact iff_of_false (by simp) (by simp)

theorem parent_eq_iff (hb : Built entries parents h) (he : entries[c]? = some e)
    (hp : entries[i]? = some p) : parents[c]? = some (some i) ↔ e.parentId = some p.node := by
  rcases parent_cases_of_link hb.linked he with ⟨hnone, hget⟩ | ⟨p', i', hparent, hi', hget⟩
  · rw [hnone, hget]
    exact iff_of_false (by simp) (by simp)
  · rw [hparent, hget, Option.some.injEq, Option.some.injEq, Option.some.injEq]
    constructor
    · rintro rfl
      rw [Option.some.inj (hi'.symm.trans hp)]
    · intro hkey
      have hi : i' < h.size := hb.size_eq ▸ (List.getElem?_eq_some_iff.mp hi').choose
      have hj : i < h.size := hb.size_eq ▸ (List.getElem?_eq_some_iff.mp hp).choose
      refine hb.key_injective hi hj ?_
      rw [hb.key_of_getElem? hi', hb.key_of_getElem? hp, hkey]

/-- The keys of the nodes with a given parent, as the listing has them. -/
theorem map_key_withParent (hb : Built entries parents h) {x : Option Nat} {q : Entry → Bool}
    (hq : ∀ (c : Nat) e, entries[c]? = some e → (parents[c]? = some x ↔ q e = true)) :
    (withParent parents x).map h.key = (entries.filter q).map (·.node) := by
  have hplaces : withParent parents x = (entries.zipIdx.filter fun (e, _) => q e).map (·.2) := by
    refine (withParent_sorted parents x).eq_of_mem_iff (positions_sorted entries _) fun c => ?_
    simp only [mem_withParent_iff, List.mem_map, List.mem_filter, List.mem_zipIdx_iff_getElem?,
      Prod.exists]
    constructor
    · intro hget
      have hc : c < entries.length := hb.length_eq ▸ (List.getElem?_eq_some_iff.mp hget).choose
      have he := List.getElem?_eq_getElem hc
      exact ⟨entries[c], c, ⟨he, (hq c _ he).mp hget⟩, rfl⟩
    · rintro ⟨e, c', ⟨he, hqe⟩, rfl⟩
      exact (hq c' e he).mpr hqe
  calc (withParent parents x).map h.key
      = (entries.zipIdx.filter fun (e, _) => q e).map fun (_, c) => h.key c := by
        rw [hplaces, List.map_map]
        rfl
    _ = (entries.zipIdx.filter fun (e, _) => q e).map fun (e, _) => e.node := by
        refine List.map_congr_left fun pair hpair => ?_
        exact hb.key_of_getElem? (List.mem_zipIdx_iff_getElem?.mp (List.mem_filter.mp hpair).1)
    _ = ((entries.zipIdx.map (·.1)).filter q).map (·.node) := by
        rw [List.filter_map, List.map_map]
        rfl
    _ = (entries.filter q).map (·.node) := by rw [List.zipIdx_map_fst]

end Built

end Hierarchy

/-! ## The tree of a listing -/

namespace SelectionTree

open Hierarchy

/-- The tree holds a listing: its entries with their relatives, in the order of the listing, and
everything checked and the roots open. -/
structure Represents (t : SelectionTree) (entries : List Entry) : Prop where
  entries_eq : t.hierarchy.nodes.toList.map (·.entry) = entries
  parent_eq : ∀ e ∈ entries, t.parent? e.node = e.parentId
  children_eq : ∀ e ∈ entries,
    t.children e.node = (entries.filter (·.parentId == some e.node)).map (·.node)
  roots_eq : t.roots = (entries.filter (·.parentId == none)).map (·.node)
  mainRoot_eq : t.mainRoot = (entries.find? (·.isMainRoot)).map (·.node)
  depth_eq : ∀ node ∈ t.hierarchy.nodes,
    ∃ above, Lineage entries node.entry above ∧ node.depth = above.length
  marks_eq : t.checked = Array.replicate entries.length true
  state_eq : ∀ e ∈ entries, t.state? e.node = some .checked
  isExpanded_iff : ∀ e ∈ entries, (t.isExpanded e.node = true ↔ e.parentId = none)

variable {t : SelectionTree}

theorem isOpen_ofHierarchy (hc : c < h.size) :
    (ofHierarchy h).isOpen c = h.roots.contains c := by
  rw [isOpen, markIn, ofHierarchy, Array.getD_eq_getD_getElem?, List.getElem?_toArray,
    List.getElem?_map, List.getElem?_range hc]
  rfl

theorem represents_ofHierarchy (hb : Built entries parents h) (hw : h.WellFormed) :
    (ofHierarchy h).Represents entries where
  entries_eq := by
    refine List.ext_getElem? fun c => ?_
    rw [List.getElem?_map, Array.getElem?_toList]
    exact hb.entry_eq c
  parent_eq := by
    intro e he
    obtain ⟨c, hc⟩ := List.mem_iff_getElem?.mp he
    rw [parent?, ofHierarchy, hb.indexOf?_node hw hc, Option.bind_some, hb.parent_eq]
    rcases parent_cases_of_link hb.linked hc with ⟨hnone, hget⟩ | ⟨p, i, hparent, hi, hget⟩
    · rw [hnone, hget]
      rfl
    · rw [hparent, hget, Option.join_some, Option.map_some, hb.key_of_getElem? hi]
  children_eq := by
    intro e he
    obtain ⟨c, hc⟩ := List.mem_iff_getElem?.mp he
    have hlt : c < h.size := hb.size_eq ▸ (List.getElem?_eq_some_iff.mp hc).choose
    simp only [children, ofHierarchy, hb.indexOf?_node hw hc, hb.children_eq hlt]
    refine hb.map_key_withParent fun d f hd => ?_
    rw [beq_iff_eq]
    exact hb.parent_eq_iff hd hc
  roots_eq := by
    rw [roots, ofHierarchy, hb.roots]
    refine hb.map_key_withParent fun d f hd => ?_
    rw [beq_iff_eq]
    exact hb.parent_eq_none_iff hd
  mainRoot_eq := by
    rw [mainRoot, ofHierarchy, (mainRoot_of_link hb.linked).1, Option.none_or,
      List.find?_eq_bind_findIdx?_getElem?]
    cases hfound : entries.findIdx? (·.isMainRoot) with
    | none => rfl
    | some m =>
        have hget := List.getElem?_eq_getElem (List.findIdx?_eq_some_iff_getElem.mp hfound).choose
        rw [Option.map_some, Option.map_some, Option.bind_some, Nat.zero_add,
          hb.key_of_getElem? hget, hget]
        rfl
  depth_eq := by
    intro node hnode
    obtain ⟨c, hc⟩ := Array.mem_iff_getElem?.mp hnode
    have hnode? : h.node? c = some node := hc
    have he := hb.entry_eq c
    rw [hnode?] at he
    obtain ⟨above, habove, hlength⟩ := hb.lineage he.symm
    rw [Hierarchy.depth, hnode?] at hlength
    exact ⟨above, habove, hlength.symm⟩
  marks_eq := by rw [ofHierarchy, hb.size_eq]
  state_eq := by
    intro e he
    obtain ⟨c, hc⟩ := List.mem_iff_getElem?.mp he
    have hlt : c < h.size := hb.size_eq ▸ (List.getElem?_eq_some_iff.mp hc).choose
    rw [state?]
    show (h.indexOf? e.node).map _ = _
    rw [hb.indexOf?_node hw hc, Option.map_some, Option.some.injEq]
    refine (stateOf_eq_checked_iff hw hlt).mpr fun l hleaf _ => ?_
    exact isMarked_ofHierarchy hleaf.1
  isExpanded_iff := by
    intro e he
    obtain ⟨c, hc⟩ := List.mem_iff_getElem?.mp he
    have hlt : c < h.size := hb.size_eq ▸ (List.getElem?_eq_some_iff.mp hc).choose
    have hkey : (ofHierarchy h).hierarchy.indexOf? e.node = some c := hb.indexOf?_node hw hc
    rw [isExpanded, hkey]
    show (ofHierarchy h).isOpen c = true ↔ _
    rw [isOpen_ofHierarchy hlt, List.contains_iff_mem, hb.roots, mem_withParent_iff]
    exact hb.parent_eq_none_iff hc

/-- **The listings with a tree are the forests**: the tree of a forest holds it, and of any other
listing a fault is told that is true of it, as the error of a malformed tree. -/
theorem builds_iff_isForest (entries : List Entry) :
    ((∃ t, build entries = .ok t) ↔ IsForest entries) ∧
      (∀ t, build entries = .ok t → t.Represents entries) ∧
      (¬ IsForest entries → ∃ fault, build entries = .error fault ∧ fault.TrueOf entries ∧
        ∀ (s : Session) raw, Reply.parseList raw = .ok entries →
          s.onListed raw = (s, [], .error (.malformedTree fault))) := by
  cases hh : Hierarchy.build entries with
  | ok h =>
      have hbuild : build entries = .ok (ofHierarchy h) := by rw [build, hh]; rfl
      obtain ⟨parents, hb⟩ := Hierarchy.build_eq_ok hh
      refine ⟨iff_of_true ⟨_, hbuild⟩ hb.isForest, fun t ht => ?_, fun hnot => ?_⟩
      · rw [hbuild] at ht
        cases ht
        exact represents_ofHierarchy hb (wellFormed_of_build hh)
      · exact absurd hb.isForest hnot
  | error fault =>
      have hbuild : build entries = .error fault := by rw [build, hh]; rfl
      have htrue := trueOf_of_build_eq_error hh
      refine ⟨iff_of_false ?_ fun hforest => hforest.not_trueOf fault htrue, fun t ht => ?_,
        fun _ => ⟨fault, hbuild, htrue, fun s raw hraw => ?_⟩⟩
      · rintro ⟨t, ht⟩
        rw [hbuild] at ht
        cases ht
      · rw [hbuild] at ht
        cases ht
      · rw [Session.onListed, hraw]
        simp only [hbuild]

/-- An entry below a cycle is missed like those on it, and the first of them is named. -/
example : build
    [ { node := 7, name := "below", parentId := some 8 }
    , { node := 8, name := "there", parentId := some 9 }
    , { node := 9, name := "back", parentId := some 8 }
    , { node := 1, name := "apart" } ] = .error (.cycle 7) := rfl

end SelectionTree

end InstallerBrowser
