import InstallerBrowser.Proofs.Tree.Derivation
import InstallerBrowser.Proofs.Tree.Toggle

/-!
# InstallerBrowser.Proofs.Tree.Rows

The rows that are shown of a tree.

The walk behind the rows steps to the children of open nodes, so it lists the nodes below open
nodes only, in pre-order (`mem_visibleNodes_iff`), and each of them is shown by its row
(`visibleRows_eq`, `shows_rowAt`).  `visibleRows_run` says so for every run.

What a cursor in the rows goes by are places in the pre-order: behind a node comes the first of
those it leads to (`getElem?_succ_of_visits`), and a change of the ways on from one node leaves the
order up to that node as it is (`visits_change`).
-/

namespace InstallerBrowser

/-! ## Places in a pre-order -/

section Places

variable {next next' : Nat → List Nat} {work taken taken' rest : List Nat} {i c n : Nat}

/-- Right behind a node comes the first node that it leads to. -/
theorem getElem?_succ_of_visits (h : Visits next work taken) (hn : taken[n]? = some i)
    (hnext : next i = c :: rest) : taken[n + 1]? = some c := by
  induction h generalizing n with
  | nil => cases hn
  | @cons j below work after hbelow _ ihbelow ihafter =>
      rw [List.getElem?_cons_succ]
      cases n with
      | zero =>
          cases hn
          rw [hnext] at hbelow
          cases hbelow
          rfl
      | succ n =>
          rw [List.getElem?_cons_succ] at hn
          by_cases hlt : n < below.length
          · rw [List.getElem?_append_left hlt] at hn
            have hc := ihbelow hn
            obtain ⟨hlt', _⟩ := List.getElem?_eq_some_iff.mp hc
            rw [List.getElem?_append_left hlt', hc]
          · rw [List.getElem?_append_right (Nat.le_of_not_lt hlt)] at hn
            rw [List.getElem?_append_right (by omega), ← ihafter hn]
            congr 1
            omega

/-- The ways on from a node make a difference only behind it. -/
theorem visits_change (hsame : ∀ j, j ≠ i → next' j = next j) (h : Visits next work taken)
    (h' : Visits next' work taken') :
    taken' = taken ∨ ∃ before after after',
      taken = before ++ i :: after ∧ taken' = before ++ i :: after' := by
  induction h generalizing taken' with
  | nil =>
      cases h'
      exact .inl rfl
  | @cons j below work after _ _ ihbelow ihafter =>
      cases h' with
      | @cons _ below' _ after' hbelow' hafter' =>
          by_cases hji : j = i
          · subst hji
            exact .inr ⟨[], _, _, rfl, rfl⟩
          · rw [hsame j hji] at hbelow'
            -- the first difference is below `j`, behind it, or nowhere
            rcases ihbelow hbelow' with rfl | ⟨before, rest, rest', rfl, rfl⟩
            · rcases ihafter hafter' with rfl | ⟨before, rest, rest', rfl, rfl⟩
              · exact .inl rfl
              · exact .inr ⟨j :: (below' ++ before), rest, rest', by simp, by simp⟩
            · exact .inr ⟨j :: before, rest ++ after, rest' ++ after', by simp, by simp⟩

/-- So the node keeps its place. -/
theorem getElem?_visits_change (hsame : ∀ j, j ≠ i → next' j = next j)
    (h : Visits next work taken) (h' : Visits next' work taken') (hnodup : taken.Nodup)
    (hn : taken[n]? = some i) : taken'[n]? = some i := by
  rcases visits_change hsame h h' with rfl | ⟨before, after, after', rfl, rfl⟩
  · exact hn
  · have hlt := (List.getElem?_eq_some_iff.mp hn).choose
    have hplace : n = before.length := (List.getElem?_inj hlt hnodup).mp (by simp [hn])
    simp [hplace]

end Places

namespace Hierarchy

variable {h : Hierarchy} {i : Nat}

theorem children_of_node? {node : Node} (hnode : h.node? i = some node) :
    h.children i = node.children := by rw [children, hnode]

theorem key_of_node? {node : Node} (hnode : h.node? i = some node) :
    h.key i = node.entry.node := by rw [key, hnode]

theorem depth_of_node? {node : Node} (hnode : h.node? i = some node) :
    h.depth i = node.depth := by rw [depth, hnode]

/-- The climb lists as many nodes as there are ancestors. -/
theorem WellFormed.length_ancestors (hw : h.WellFormed) (hi : HasAncestors h.parent n i) :
    (h.ancestors i).length = n := by
  induction hi with
  | root hnone => rw [ancestors_of_root hnone, List.length_nil]
  | child hp _ ih => rw [hw.ancestors_of_parent hp, List.length_cons, ih]

theorem depth_eq_length_ancestors {entries : List Entry} (hb : build entries = .ok h)
    (hi : i < h.size) : h.depth i = (h.ancestors i).length := by
  obtain ⟨parents, hbuilt⟩ := build_eq_ok hb
  exact ((wellFormed_of_build hb).length_ancestors (hbuilt.hasAncestors_depth hi).2).symm

end Hierarchy

namespace SelectionTree

open Hierarchy

variable {t : SelectionTree} {i n : Nat} {key : NodeKey} {row : TreeRow} {entries : List Entry}

/-! ## The nodes that are shown -/

/-- Where the walk behind the rows goes on from a node. -/
def nextShown (t : SelectionTree) (i : Nat) : List Nat :=
  if t.isOpen i then t.hierarchy.children i else []

theorem nextShown_cases (t : SelectionTree) (i : Nat) :
    t.nextShown i = [] ∨ t.nextShown i = t.hierarchy.children i := by
  rw [nextShown]
  split
  · exact .inr rfl
  · exact .inl rfl

theorem nextShown_eq_children_iff (hne : t.hierarchy.children i ≠ []) :
    t.nextShown i = t.hierarchy.children i ↔ t.isOpen i = true := by
  rw [nextShown]
  split
  · next hopen => exact iff_of_true rfl hopen
  · next hclosed => exact iff_of_false hne.symm hclosed

/-- The walk lists the nodes that are shown in pre-order, each once. -/
theorem visibleNodes_visits (hw : t.hierarchy.WellFormed) :
    Visits t.nextShown t.hierarchy.roots t.visibleNodes ∧ t.visibleNodes.Nodup := by
  obtain ⟨taken, htaken, hnodup, heq⟩ := hw.exists_traverse_eq t.nextShown_cases
    (fun i hi => (hw.mem_roots.mp hi).1) hw.roots_apart
  have hvisible : t.visibleNodes = taken := congrArg Prod.fst heq
  rw [hvisible]
  exact ⟨htaken, hnodup⟩

/-- The nodes that are shown are those of which all ancestors are open. -/
theorem mem_visibleNodes_iff (hw : t.hierarchy.WellFormed) :
    i ∈ t.visibleNodes ↔
      i < t.size ∧ ∀ a, t.hierarchy.ProperlyBelow i a → t.isOpen a = true := by
  have hvisits := (visibleNodes_visits hw).1
  have hnext : ∀ a, t.hierarchy.ProperlyBelow i a →
      (t.nextShown a = t.hierarchy.children a ↔ t.isOpen a = true) := fun a ha =>
    nextShown_eq_children_iff (hw.children_ne_nil_of_properlyBelow ha)
  have hleads : i < t.size → (i ∈ t.visibleNodes ↔
      ∀ a, t.hierarchy.ProperlyBelow i a → t.isOpen a = true) := fun hi => by
    rw [mem_visits_iff hvisits, hw.leads_from_root_iff t.nextShown_cases hi]
    exact forall_congr' fun a => forall_congr' fun ha => hnext a ha
  constructor
  · intro hmem
    obtain ⟨r, hr, hri⟩ := (mem_visits_iff hvisits).mp hmem
    have hi : i < t.size :=
      lt_size_of_below (hw.below_of_leads t.nextShown_cases hri) (hw.mem_roots.mp hr).1
    exact ⟨hi, (hleads hi).mp hmem⟩
  · exact fun ⟨hi, hopen⟩ => (hleads hi).mpr hopen

theorem lt_size_of_mem_visibleNodes (hw : t.hierarchy.WellFormed) (hi : i ∈ t.visibleNodes) :
    i < t.size := ((mem_visibleNodes_iff hw).mp hi).1

/-- The parent of a node that is shown is shown, and open. -/
theorem mem_visibleNodes_of_parent (hw : t.hierarchy.WellFormed) (hi : i ∈ t.visibleNodes)
    (hp : t.hierarchy.parent i = some p) : p ∈ t.visibleNodes ∧ t.isOpen p = true := by
  have hopen := ((mem_visibleNodes_iff hw).mp hi).2
  have hproper := properlyBelow_of_parent hp
  refine ⟨(mem_visibleNodes_iff hw).mpr ⟨hw.parent_lt_size hp, fun a ha => ?_⟩, hopen p hproper⟩
  exact hopen a (Relation.TransGen.trans hproper ha)

/-- Behind an open node with children its first child is shown. -/
theorem visibleNodes_first_child (hw : t.hierarchy.WellFormed) (hn : t.visibleNodes[n]? = some i)
    (hopen : t.isOpen i = true) (hchildren : t.hierarchy.children i = c :: rest) :
    t.visibleNodes[n + 1]? = some c := by
  have hnext : t.nextShown i = c :: rest := by rw [nextShown, if_pos hopen, hchildren]
  exact getElem?_succ_of_visits (visibleNodes_visits hw).1 hn hnext

/-! ## Their rows -/

/-- The row of a node. -/
def rowAt (t : SelectionTree) (i : Nat) : TreeRow := (t.row t.allStates i).getD default

theorem row_eq_some_rowAt (hi : i < t.size) : t.row t.allStates i = some (t.rowAt i) := by
  have hnode : t.hierarchy.node? i = some t.hierarchy.nodes[i] := Array.getElem?_eq_getElem hi
  rw [rowAt, row, hnode, Option.map_some, Option.getD_some]

/-- Every node that is shown has its row. -/
theorem visibleRows_eq (hw : t.hierarchy.WellFormed) :
    t.visibleRows = t.visibleNodes.map t.rowAt :=
  List.filterMap_eq_map_iff_forall_eq_some.mpr fun _ hi =>
    row_eq_some_rowAt (lt_size_of_mem_visibleNodes hw hi)

theorem isExpanded_key (hw : t.hierarchy.WellFormed) (hi : i < t.size) :
    t.isExpanded (t.hierarchy.key i) = t.isOpen i := by
  rw [isExpanded, hw.indexOf?_eq_some_iff.mpr ⟨hi, rfl⟩]

/-- What a row shows of its node. -/
structure Shows (t : SelectionTree) (i : Nat) (row : TreeRow) : Prop where
  key_eq : row.key = t.hierarchy.key i
  entry_eq : ∃ e, (t.hierarchy.node? i).map (·.entry) = some e ∧
    row.name = e.name ∧ row.languages = e.languages ∧ row.isFile = e.isFile
  hasChildren_iff : row.hasChildren = true ↔ t.hierarchy.children i ≠ []
  expanded_eq : row.expanded = t.isExpanded row.key
  state_eq : t.state? row.key = some row.state

theorem shows_rowAt (hw : t.hierarchy.WellFormed) (hi : i < t.size) :
    t.Shows i (t.rowAt i) ∧ (t.rowAt i).depth = t.hierarchy.depth i := by
  have hnode : t.hierarchy.node? i = some t.hierarchy.nodes[i] := Array.getElem?_eq_getElem hi
  have hrow := row_eq_some_rowAt hi
  rw [row, hnode, Option.map_some, Option.some.injEq] at hrow
  have hkey : (t.rowAt i).key = t.hierarchy.key i := by
    rw [← hrow, key_of_node? hnode]
  refine ⟨?_, by rw [← hrow, depth_of_node? hnode]⟩
  exact
    { key_eq := hkey
      entry_eq := ⟨t.hierarchy.nodes[i].entry, by rw [hnode, Option.map_some],
        by rw [← hrow], by rw [← hrow], by rw [← hrow]⟩
      hasChildren_iff := by rw [← hrow, children_of_node? hnode]; simp
      expanded_eq := by rw [hkey, isExpanded_key hw hi, ← hrow]
      state_eq := by
        rw [hkey, state?, hw.indexOf?_eq_some_iff.mpr ⟨hi, rfl⟩, Option.map_some, ← hrow,
          getD_allStates hw hi] }

/-- The keys of the rows are those of the nodes that are shown. -/
theorem map_key_visibleRows (hw : t.hierarchy.WellFormed) :
    t.visibleRows.map (·.key) = t.visibleNodes.map t.hierarchy.key := by
  rw [visibleRows_eq hw, List.map_map]
  exact List.map_congr_left fun i hi =>
    (shows_rowAt hw (lt_size_of_mem_visibleNodes hw hi)).1.key_eq

/-- No two rows are of the same node. -/
theorem nodup_map_key_visibleRows (hw : t.hierarchy.WellFormed) :
    (t.visibleRows.map (·.key)).Nodup := by
  rw [map_key_visibleRows hw]
  exact (visibleNodes_visits hw).2.map_on fun i hi j hj =>
    hw.key_injective (lt_size_of_mem_visibleNodes hw hi) (lt_size_of_mem_visibleNodes hw hj)

/-- The node that a row shows. -/
theorem exists_shows (hw : t.hierarchy.WellFormed) (hrow : t.visibleRows[n]? = some row) :
    ∃ i, t.visibleNodes[n]? = some i ∧ i < t.size ∧ t.Shows i row := by
  rw [visibleRows_eq hw, List.getElem?_map, Option.map_eq_some_iff] at hrow
  obtain ⟨i, hi, rfl⟩ := hrow
  have hlt := lt_size_of_mem_visibleNodes hw (List.mem_of_getElem? hi)
  exact ⟨i, hi, hlt, (shows_rowAt hw hlt).1⟩

theorem getElem?_visibleRows (hw : t.hierarchy.WellFormed) (hn : t.visibleNodes[n]? = some i) :
    ∃ row, t.visibleRows[n]? = some row ∧ t.Shows i row := by
  refine ⟨t.rowAt i, ?_, (shows_rowAt hw ?_).1⟩
  · rw [visibleRows_eq hw, List.getElem?_map, hn, Option.map_some]
  · exact lt_size_of_mem_visibleNodes hw (List.mem_of_getElem? hn)

/-- Behind the row of an open node with children comes that of its first child. -/
theorem visibleRows_first_child (hw : t.hierarchy.WellFormed) (hrow : t.visibleRows[n]? = some row)
    (hopen : row.expanded = true) (hchildren : row.hasChildren = true) :
    ∃ child, t.visibleRows[n + 1]? = some child ∧
      (t.children row.key).head? = some child.key := by
  obtain ⟨i, hi, hlt, hshows⟩ := exists_shows hw hrow
  rw [hshows.expanded_eq, hshows.key_eq, isExpanded_key hw hlt] at hopen
  obtain ⟨c, rest, hc⟩ := List.exists_cons_of_ne_nil (hshows.hasChildren_iff.mp hchildren)
  obtain ⟨child, hchild, hshowsChild⟩ :=
    getElem?_visibleRows hw (visibleNodes_first_child hw hi hopen hc)
  refine ⟨child, hchild, ?_⟩
  rw [children, hshows.key_eq, hw.indexOf?_eq_some_iff.mpr ⟨hlt, rfl⟩, hshowsChild.key_eq]
  dsimp only
  rw [hc, List.map_cons, List.head?_cons]

/-- With a node its parent is shown, and open. -/
theorem visibleRows_parent (hw : t.hierarchy.WellFormed) {p : NodeKey} (hrow : row ∈ t.visibleRows)
    (hp : t.parent? row.key = some p) :
    ∃ above ∈ t.visibleRows, above.key = p ∧ above.expanded = true := by
  obtain ⟨n, hn⟩ := List.mem_iff_getElem?.mp hrow
  obtain ⟨i, hi, hlt, hshows⟩ := exists_shows hw hn
  rw [parent?, hshows.key_eq, hw.indexOf?_eq_some_iff.mpr ⟨hlt, rfl⟩, Option.bind_some,
    Option.map_eq_some_iff] at hp
  obtain ⟨q, hq, rfl⟩ := hp
  obtain ⟨hmem, hopen⟩ := mem_visibleNodes_of_parent hw (List.mem_of_getElem? hi) hq
  obtain ⟨m, hm⟩ := List.mem_iff_getElem?.mp hmem
  obtain ⟨above, habove, hshowsAbove⟩ := getElem?_visibleRows hw hm
  refine ⟨above, List.mem_of_getElem? habove, hshowsAbove.key_eq, ?_⟩
  rw [hshowsAbove.expanded_eq, hshowsAbove.key_eq, isExpanded_key hw (hw.parent_lt_size hq), hopen]

/-! ## Rows that stay -/

variable {t' : SelectionTree}

/-- Which nodes are shown hangs on the open marks alone. -/
theorem map_key_visibleRows_congr (hw : t.hierarchy.WellFormed) (hh : t'.hierarchy = t.hierarchy)
    (hopen : t'.expanded = t.expanded) :
    t'.visibleRows.map (·.key) = t.visibleRows.map (·.key) := by
  have hnodes : t'.visibleNodes = t.visibleNodes := by
    simp only [visibleNodes, size, isOpen, hh, hopen]
    rfl
  rw [map_key_visibleRows hw, map_key_visibleRows (hh ▸ hw), hnodes, hh]

theorem NodeWrite.expanded_eq {result : SelectionTree × Bool}
    (h : NodeWrite t i mark result) : result.1.expanded = t.expanded := by
  cases h with
  | allKept _ _ | all _ _ | kept _ _ | below _ _ => rfl

theorem isOpen_setOpen_of_ne (hkey : t.hierarchy.indexOf? key = some i) (hne : j ≠ i)
    (mark : Bool) : (t.setOpen key mark).isOpen j = t.isOpen j := by
  simp only [setOpen, hkey]
  rw [isOpen, markIn, getD_setIfInBounds, if_neg]
  · rfl
  · exact fun h => hne h.1.symm

/-- The row of a node that is opened or closed stays where it is: only what is behind it can
change. -/
theorem visibleRows_setOpen (hw : t.hierarchy.WellFormed) (hrow : t.visibleRows[n]? = some row)
    (mark : Bool) :
    ∃ row', (t.setOpen row.key mark).visibleRows[n]? = some row' ∧ row'.key = row.key := by
  obtain ⟨i, hi, hlt, hshows⟩ := exists_shows hw hrow
  have hkey : t.hierarchy.indexOf? row.key = some i :=
    hw.indexOf?_eq_some_iff.mpr ⟨hlt, hshows.key_eq.symm⟩
  have hh : (t.setOpen row.key mark).hierarchy = t.hierarchy := by rw [setOpen, hkey]
  have hw' : (t.setOpen row.key mark).hierarchy.WellFormed := hh ▸ hw
  have hsame : ∀ j, j ≠ i → (t.setOpen row.key mark).nextShown j = t.nextShown j := fun j hj => by
    rw [nextShown, isOpen_setOpen_of_ne hkey hj, hh, nextShown]
  obtain ⟨hvisits, hnodup⟩ := visibleNodes_visits hw
  have hvisits' := (visibleNodes_visits hw').1
  rw [hh] at hvisits'
  have hn := getElem?_visits_change hsame hvisits hvisits' hnodup hi
  obtain ⟨row', hrow', hshows'⟩ := getElem?_visibleRows hw' hn
  exact ⟨row', hrow', by rw [hshows'.key_eq, hh, hshows.key_eq]⟩

/-! ## Rows of runs -/

/-- **The rows are the open part of the tree in pre-order**: after any operations on the tree of a
listing, the rows show the nodes of which all ancestors are open, each once, in pre-order with
roots and children in listing order.  A row shows its entry, how many ancestors it has, whether it
has children and is open, and the state that is told for its key.  Behind the row of an open node
with children comes its first child, and with a node its parent is shown, and open. -/
theorem visibleRows_run (hb : build entries = .ok t) (ops : List Operation) :
    let s := t.run ops
    (∃ all visible : List Nat,
      (∀ i, (t.hierarchy.node? i).map (·.entry) = entries[i]?) ∧ t.hierarchy.Preorder all ∧
      visible.Sublist all ∧
      (∀ i, i ∈ visible ↔ i < t.size ∧
        ∀ a, t.hierarchy.ProperlyBelow i a → s.isExpanded (t.hierarchy.key a) = true) ∧
      List.Forall₂ (fun i row => s.Shows i row ∧ row.depth = (t.hierarchy.ancestors i).length)
        visible s.visibleRows) ∧
      (s.visibleRows.map (·.key)).Nodup ∧
      (∀ n row, s.visibleRows[n]? = some row → row.expanded = true → row.hasChildren = true →
        ∃ child, s.visibleRows[n + 1]? = some child ∧
          (s.children row.key).head? = some child.key) ∧
      ∀ row ∈ s.visibleRows, ∀ p, s.parent? row.key = some p →
        ∃ above ∈ s.visibleRows, above.key = p ∧ above.expanded = true := by
  intro s
  have hw : s.hierarchy.WellFormed := (consistent_run hb ops).wellFormed
  refine ⟨?_, nodup_map_key_visibleRows hw, fun n row => visibleRows_first_child hw,
    fun row hrow p => visibleRows_parent hw hrow⟩
  obtain ⟨h, hh, rfl⟩ := build_eq_ok hb
  have hs : s.hierarchy = h := hierarchy_run _ ops
  obtain ⟨all, hall⟩ := hw.exists_preorder
  have hmem : ∀ i, i ∈ s.visibleNodes ↔ i < s.size ∧
      ∀ a, s.hierarchy.ProperlyBelow i a → s.isExpanded (s.hierarchy.key a) = true := fun i => by
    rw [mem_visibleNodes_iff hw]
    refine and_congr_right fun hi => forall_congr' fun a => imp_congr_right fun ha => ?_
    rw [isExpanded_key hw (hw.below_lt_size ha.below hi)]
  have hrows : List.Forall₂ (fun i row => s.Shows i row ∧
      row.depth = (s.hierarchy.ancestors i).length) s.visibleNodes s.visibleRows := by
    rw [visibleRows_eq hw, List.forall₂_map_right_iff, List.forall₂_same]
    intro i hi
    have hlt := lt_size_of_mem_visibleNodes hw hi
    obtain ⟨hshows, hdepth⟩ := shows_rowAt hw hlt
    refine ⟨hshows, hdepth.trans ?_⟩
    rw [size, hs] at hlt
    rw [hs, depth_eq_length_ancestors hh hlt]
  have hsub := visits_sublist s.nextShown_cases (visibleNodes_visits hw).1 hall.visits
  rw [size] at hmem
  rw [hs] at hall hmem hrows
  exact ⟨all, s.visibleNodes, entry_of_build hh, hall, hsub, hmem, hrows⟩

/-- A directory stays open below a root that is closed, and its files are shown again once the root
is opened. -/
theorem visibleRows_run_twoRootListing : ∃ t s, build twoRootListing = .ok t ∧
    s = t.run [.expand 1, .collapse 0, .uncheck 3, .toggleExpanded 0, .toggleExpanded 4] ∧
    s.visibleRows.map (·.key) = [0, 1, 2, 3, 4] ∧
    (s.visibleRows.map (·.key)).Nodup ∧ s.parent? 3 = some 1 ∧
    ∃ above ∈ s.visibleRows, above.key = 1 ∧ above.expanded = true := by
  obtain ⟨t, hb⟩ : ∃ t, build twoRootListing = .ok t := ⟨_, rfl⟩
  obtain ⟨_, hnodup, _, habove⟩ := visibleRows_run hb
    [.expand 1, .collapse 0, .uncheck 3, .toggleExpanded 0, .toggleExpanded 4]
  generalize hs : t.run _ = s at hnodup habove
  have hkeys : s.visibleRows.map (·.key) = [0, 1, 2, 3, 4] := by
    cases hb
    cases hs
    decide +kernel
  have hparent : s.parent? 3 = some 1 := by
    cases hb
    cases hs
    decide +kernel
  obtain ⟨row, hrow, hkey⟩ : ∃ row ∈ s.visibleRows, row.key = 3 :=
    List.mem_map.mp (hkeys ▸ by decide)
  exact ⟨t, s, hb, hs.symm, hkeys, hnodup, hparent, habove row hrow 1 (by rw [hkey, hparent])⟩

end SelectionTree

end InstallerBrowser
