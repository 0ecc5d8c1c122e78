import InstallerBrowser.Proofs.Tree.Cover
import InstallerBrowser.Proofs.Tree.Derivation
import InstallerBrowser.Proofs.Tree.Rows

/-!
# InstallerBrowser.Proofs.Tree.Loops

The loops over a tree, without a bound.

The walks of a tree carry a bound on their steps.  Here they are loops that only follow the links,
and may go on forever: a worklist that is emptied (`Drains`), the same with the early end of the walk
behind a state (`Scans`), and a cursor that goes up (`Rises`).  In the tree of a listing each of them
has exactly one run, which takes no node twice and comes to what the bounded walk comes to
(`loops_of_build`):

* a worklist takes the pre-order that `next` leads to (`drains_iff`);
* a climb looks at a node and its ancestors, up to where it stops (`exists_rises`).
-/

namespace InstallerBrowser

variable {σ : Type} {push next : Nat → List Nat} {parent : Nat → Option Nat}
  {visit : σ → Nat → Option σ}

/-! ## Worklists -/

/-- The loop of a worklist: the top is taken off and what `push` gives put in its place, until
nothing is left. -/
inductive Drains (push : Nat → List Nat) : List Nat → List Nat → Prop
  | done : Drains push [] []
  | take : Drains push (push i ++ stack) taken → Drains push (i :: stack) (i :: taken)

theorem Drains.append (hx : Drains push xs as) (hy : Drains push ys bs) :
    Drains push (xs ++ ys) (as ++ bs) := by
  induction hx with
  | done => exact hy
  | take _ ih =>
      rw [List.append_assoc] at ih
      exact .take ih

theorem Drains.unique (h : Drains push stack taken) (h' : Drains push stack taken') :
    taken' = taken := by
  induction h generalizing taken' with
  | done =>
      cases h'
      rfl
  | take _ ih =>
      cases h' with
      | take hrest => rw [ih hrest]

theorem drains_of_visits (h : Visits next work taken) : Drains next work taken := by
  induction h with
  | nil => exact .done
  | cons _ _ ihbelow ihafter => exact .take (ihbelow.append ihafter)

/-- The loop takes the pre-order, and has no other run. -/
theorem drains_iff (h : Visits next work all) : Drains next work taken ↔ taken = all := by
  constructor
  · exact fun hdrains => (drains_of_visits h).unique hdrains
  · rintro rfl
    exact drains_of_visits h

/-! ## Climbs -/

/-- The loop that goes up from a cursor and looks at each node: it is over behind a root, and where
`visit` gives nothing to go on with. -/
inductive Rises (parent : Nat → Option Nat) (visit : σ → Nat → Option σ) :
    σ → Option Nat → List Nat → σ → Prop
  | done : Rises parent visit s none [] s
  | stop : visit s i = none → Rises parent visit s (some i) [i] s
  | up : visit s i = some s' → Rises parent visit s' (parent i) seen r →
      Rises parent visit s (some i) (i :: seen) r

theorem Rises.unique {s r r' : σ} (h : Rises parent visit s cursor seen r)
    (h' : Rises parent visit s cursor seen' r') : seen' = seen ∧ r' = r := by
  induction h generalizing seen' r' with
  | done =>
      cases h'
      exact ⟨rfl, rfl⟩
  | stop hstop =>
      cases h' with
      | stop _ => exact ⟨rfl, rfl⟩
      | up hgo _ => cases hstop.symm.trans hgo
  | up hgo _ ih =>
      cases h' with
      | stop hstop => cases hstop.symm.trans hgo
      | up hgo' hrest =>
          obtain rfl := Option.some.inj (hgo.symm.trans hgo')
          obtain ⟨rfl, rfl⟩ := ih hrest
          exact ⟨rfl, rfl⟩

/-- A run of the loop is its only one. -/
theorem Rises.run_iff {s r r' : σ} (h : Rises parent visit s cursor seen r) :
    Rises parent visit s cursor seen' r' ↔ seen' = seen ∧ r' = r := by
  constructor
  · exact h.unique
  · rintro ⟨rfl, rfl⟩
    exact h

/-- What looking at the nodes of a path in turn comes to. -/
def along (visit : σ → Nat → Option σ) (s : σ) : List Nat → σ
  | [] => s
  | i :: path =>
    match visit s i with
    | none => s
    | some s' => along visit s' path

theorem along_of_none {s : σ} (hv : visit s i = none) (path : List Nat) :
    along visit s (i :: path) = s := by rw [along, hv]

theorem along_of_some {s s' : σ} (hv : visit s i = some s') (path : List Nat) :
    along visit s (i :: path) = along visit s' path := by rw [along, hv]

namespace Hierarchy

variable {h : Hierarchy}

namespace WellFormed

/-- From every node the loop ends; it has gone along the ancestors, and through all of them if it
does not stop. -/
theorem exists_rises (hw : h.WellFormed) (visit : σ → Nat → Option σ) (s : σ) (i : Nat) :
    ∃ seen, Rises h.parent visit s (some i) seen (along visit s (i :: h.ancestors i)) ∧
      seen <+: i :: h.ancestors i ∧
      ((∀ s j, visit s j ≠ none) → seen = i :: h.ancestors i) := by
  induction i using hw.induction_parent generalizing s with
  | step i ih =>
      cases hv : visit s i with
      | none =>
          rw [along_of_none hv]
          exact ⟨[i], .stop hv, ⟨_, rfl⟩, fun hgo => absurd hv (hgo s i)⟩
      | some s' =>
          rw [along_of_some hv]
          cases hp : h.parent i with
          | none =>
              rw [ancestors_of_root hp]
              exact ⟨[i], .up hv (hp ▸ .done), List.prefix_refl _, fun _ => rfl⟩
          | some p =>
              rw [hw.ancestors_of_parent hp]
              obtain ⟨seen, hrises, hseen, hall⟩ := ih p hp s'
              refine ⟨i :: seen, .up hv (hp ▸ hrises), ?_, fun hgo => by rw [hall hgo]⟩
              exact List.cons_prefix_cons.mpr ⟨rfl, hseen⟩

/-- So does the loop that begins at the parent. -/
theorem exists_rises_parent (hw : h.WellFormed) (visit : σ → Nat → Option σ) (s : σ) (i : Nat) :
    ∃ seen, Rises h.parent visit s (h.parent i) seen (along visit s (h.ancestors i)) ∧
      seen <+: h.ancestors i := by
  cases hp : h.parent i with
  | none =>
      rw [ancestors_of_root hp]
      exact ⟨[], .done, List.prefix_refl _⟩
  | some p =>
      rw [hw.ancestors_of_parent hp]
      obtain ⟨seen, hrises, hseen, _⟩ := hw.exists_rises visit s p
      exact ⟨seen, hrises, hseen⟩

theorem nodup_lineage (hw : h.WellFormed) (i : Nat) : (i :: h.ancestors i).Nodup := by
  induction i using hw.induction_parent with
  | step i ih =>
      refine List.nodup_cons.mpr ⟨?_, ?_⟩
      · exact fun hi => hw.not_properlyBelow_self (hw.mem_ancestors_iff.mp hi)
      · cases hp : h.parent i with
        | none =>
            rw [ancestors_of_root hp]
            exact List.nodup_nil
        | some p =>
            rw [hw.ancestors_of_parent hp]
            exact ih p hp

theorem length_lineage_le (hw : h.WellFormed) (hi : i < h.size) :
    (i :: h.ancestors i).length ≤ h.size := by
  refine length_le_of_nodup (hw.nodup_lineage i) (List.forall_mem_cons.mpr ⟨hi, fun j hj => ?_⟩)
  exact hw.below_lt_size (hw.mem_ancestors_iff.mp hj).below hi

/-- The last of the ancestors is a root. -/
theorem exists_root_last (hw : h.WellFormed) (hi : i < h.size) :
    ∃ r ∈ h.roots, (i :: h.ancestors i).getLast? = some r := by
  induction i using hw.induction_parent with
  | step i ih =>
      cases hp : h.parent i with
      | none =>
          rw [ancestors_of_root hp]
          exact ⟨i, hw.mem_roots.mpr ⟨hi, hp⟩, rfl⟩
      | some p =>
          rw [hw.ancestors_of_parent hp, List.getLast?_cons_cons]
          exact ih p hp (hw.parent_lt_size hp)

end WellFormed

/-! ### What the climbs do at a node -/

/-- For the path of a node the names are collected, but for that of the main root. -/
def nameUp (h : Hierarchy) (names : List String) (i : Nat) : Option (List String) :=
  some (if h.isMainRoot i then names else ((h.node? i).map (·.entry.name)).toList ++ names)

theorem along_nameUp (h : Hierarchy) (names : List String) (path : List Nat) :
    along h.nameUp names path = ((path.reverse.filter fun j => !h.isMainRoot j).filterMap fun j =>
      (h.node? j).map (·.entry.name)) ++ names := by
  induction path generalizing names with
  | nil => rfl
  | cons i path ih =>
      rw [along_of_some rfl, ih, List.reverse_cons, List.filter_append, List.filterMap_append,
        List.append_assoc]
      congr 1
      cases hmain : h.isMainRoot i with
      | true => simp [hmain]
      | false => cases hnode : h.node? i <;> simp [hmain, hnode]

end Hierarchy

namespace SelectionTree

open Hierarchy

variable {t : SelectionTree} {h : Hierarchy}

/-- Checking marks a node, unless it is marked already. -/
def visitMark (marks : Array Bool) (i : Nat) : Option (Array Bool) :=
  if markIn marks i then none else some (marks.setIfInBounds i true)

/-- Unchecking clears the mark of a node, unless a child has one. -/
def visitClear (h : Hierarchy) (marks : Array Bool) (i : Nat) : Option (Array Bool) :=
  if (h.children i).any (markIn marks) then none else some (marks.setIfInBounds i false)

theorem along_visitMark (marks : Array Bool) (path : List Nat) :
    along visitMark marks path = markUp marks path := by
  induction path generalizing marks with
  | nil => rfl
  | cons i path ih =>
      rw [markUp]
      split
      · next hmarked => exact along_of_none (if_pos hmarked) path
      · next hunmarked => exact (along_of_some (if_neg hunmarked) path).trans (ih _)

theorem along_visitClear (h : Hierarchy) (marks : Array Bool) (path : List Nat) :
    along (visitClear h) marks path = clearUp h marks path := by
  induction path generalizing marks with
  | nil => rfl
  | cons i path ih =>
      rw [clearUp]
      split
      · next hmarked => exact along_of_none (if_pos hmarked) path
      · next hunmarked => exact (along_of_some (if_neg hunmarked) path).trans (ih _)

/-! ## The walk behind a state -/

/-- The loop behind the state of a node: like a worklist with the children on top, the last first,
but over as soon as a marked and an unmarked childless node were met. -/
inductive Scans (t : SelectionTree) : Bool → Bool → List Nat → List Nat → CheckState → Prop
  | done : Scans t marked unmarked [] [] (.ofMet marked unmarked)
  | met : t.hierarchy.children i = [] →
      ((marked || t.isMarked i) && (unmarked || !t.isMarked i)) = true →
      Scans t marked unmarked (i :: stack) [i] .partly
  | leaf : t.hierarchy.children i = [] →
      ((marked || t.isMarked i) && (unmarked || !t.isMarked i)) = false →
      Scans t (marked || t.isMarked i) (unmarked || !t.isMarked i) stack taken s →
      Scans t marked unmarked (i :: stack) (i :: taken) s
  | inner : t.hierarchy.children i ≠ [] →
      Scans t marked unmarked ((t.hierarchy.children i).reverse ++ stack) taken s →
      Scans t marked unmarked (i :: stack) (i :: taken) s

/-- The walk with a bound is a run of the loop. -/
theorem exists_scans_of_scan {bound : Nat} {marked unmarked : Bool} {s : CheckState}
    (h : t.scan bound marked unmarked stack = some s) :
    ∃ taken, t.Scans marked unmarked stack taken s := by
  induction bound generalizing marked unmarked stack with
  | zero =>
      cases stack with
      | nil =>
          cases h
          exact ⟨[], .done⟩
      | cons => cases h
  | succ bound ih =>
      cases stack with
      | nil =>
          cases h
          exact ⟨[], .done⟩
      | cons i stack =>
          rw [scan] at h
          split at h
          · next hleaf =>
              rw [List.isEmpty_iff] at hleaf
              dsimp only at h
              split at h
              · next hmet =>
                  cases h
                  exact ⟨[i], .met hleaf hmet⟩
              · next hmet =>
                  obtain ⟨taken, htaken⟩ := ih h
                  exact ⟨i :: taken, .leaf hleaf (eq_false_of_ne_true hmet) htaken⟩
          · next hinner =>
              rw [List.isEmpty_iff] at hinner
              obtain ⟨taken, htaken⟩ := ih h
              exact ⟨i :: taken, .inner hinner htaken⟩

theorem Scans.unique {marked unmarked : Bool} {s s' : CheckState}
    (h : t.Scans marked unmarked stack taken s) (h' : t.Scans marked unmarked stack taken' s') :
    taken' = taken ∧ s' = s := by
  induction h generalizing taken' s' with
  | done =>
      cases h'
      exact ⟨rfl, rfl⟩
  | met hleaf hmet =>
      cases h' with
      | met _ _ => exact ⟨rfl, rfl⟩
      | leaf _ hopen _ => cases hopen.symm.trans hmet
      | inner hinner _ => exact absurd hleaf hinner
  | leaf hleaf hopen _ ih =>
      cases h' with
      | met _ hmet => cases hopen.symm.trans hmet
      | leaf _ _ hrest =>
          obtain ⟨rfl, rfl⟩ := ih hrest
          exact ⟨rfl, rfl⟩
      | inner hinner _ => exact absurd hleaf hinner
  | inner hinner _ ih =>
      cases h' with
      | met hleaf _ | leaf hleaf _ _ => exact absurd hleaf hinner
      | inner _ hrest =>
          obtain ⟨rfl, rfl⟩ := ih hrest
          exact ⟨rfl, rfl⟩

/-- A run of the loop is its only one. -/
theorem Scans.run_iff {marked unmarked : Bool} {s s' : CheckState}
    (h : t.Scans marked unmarked stack taken s) :
    t.Scans marked unmarked stack taken' s' ↔ taken' = taken ∧ s' = s := by
  constructor
  · exact h.unique
  · rintro ⟨rfl, rfl⟩
    exact h

/-- The loop takes what the whole worklist takes, up to where it is over; without a state in between
it takes all of it. -/
theorem Scans.prefix_of_drains {marked unmarked : Bool} {s : CheckState}
    (h : t.Scans marked unmarked stack taken s)
    (hall : Drains (fun j => (t.hierarchy.children j).reverse) stack all) :
    taken <+: all ∧ (s ≠ .partly → taken = all) := by
  induction h generalizing all with
  | done =>
      cases hall
      exact ⟨List.prefix_refl _, fun _ => rfl⟩
  | met _ _ =>
      cases hall
      exact ⟨⟨_, rfl⟩, fun hs => absurd rfl hs⟩
  | leaf hleaf _ _ ih =>
      cases hall with
      | take hrest =>
          rw [hleaf] at hrest
          obtain ⟨htaken, hwhole⟩ := ih hrest
          exact ⟨List.cons_prefix_cons.mpr ⟨rfl, htaken⟩, fun hs => by rw [hwhole hs]⟩
  | inner _ _ ih =>
      cases hall with
      | take hrest =>
          obtain ⟨htaken, hwhole⟩ := ih hrest
          exact ⟨List.cons_prefix_cons.mpr ⟨rfl, htaken⟩, fun hs => by rw [hwhole hs]⟩

/-! ## All of them -/

/-- The order in which marks are written makes no difference. -/
theorem setMarks_perm (marks : Array Bool) {nodes nodes' : List Nat} (h : nodes.Perm nodes')
    (mark : Bool) : setMarks marks nodes mark = setMarks marks nodes' mark := by
  have : RightCommutative fun (marks : Array Bool) i => marks.setIfInBounds i mark := by
    refine ⟨fun marks i j => ?_⟩
    by_cases hij : i = j
    · rw [hij]
    · exact Array.setIfInBounds_comm mark mark hij
  exact h.foldl_eq marks

/-- The loops that go up from a node. -/
structure ClimbsFrom (t : SelectionTree) (i : Nat) : Prop where
  /-- The links lead to a root. -/
  root_last : ∃ r ∈ t.hierarchy.roots, (i :: t.hierarchy.ancestors i).getLast? = some r
  nodup : (i :: t.hierarchy.ancestors i).Nodup
  length_le : (i :: t.hierarchy.ancestors i).length ≤ t.size
  /-- The path is collected on all of that way. -/
  path : ∀ seen names, Rises t.hierarchy.parent t.hierarchy.nameUp [] (some i) seen names ↔
    seen = i :: t.hierarchy.ancestors i ∧ names = t.hierarchy.pathNames i
  /-- Checking goes along it from the parent, to the root or to where it stops. -/
  check : ∀ marks, ∃ seen, seen <+: t.hierarchy.ancestors i ∧ ∀ seen' marks',
    Rises t.hierarchy.parent visitMark marks (t.hierarchy.parent i) seen' marks' ↔
      seen' = seen ∧ marks' = markUp marks (t.hierarchy.ancestors i)
  /-- So does unchecking. -/
  uncheck : ∀ marks, ∃ seen, seen <+: t.hierarchy.ancestors i ∧ ∀ seen' marks',
    Rises t.hierarchy.parent (visitClear t.hierarchy) marks (t.hierarchy.parent i) seen' marks' ↔
      seen' = seen ∧ marks' = clearUp t.hierarchy marks (t.hierarchy.ancestors i)

/-- The loops that go down from a node, with the nodes that are taken. -/
structure WalksBelow (t : SelectionTree) (i : Nat) (walk : List Nat) : Prop where
  /-- Marks are written on a walk over what is at or below the node. -/
  drains_iff : ∀ taken,
    Drains (fun j => (t.hierarchy.children j).reverse) [i] taken ↔ taken = walk
  nodup : walk.Nodup
  mem_iff : ∀ j, j ∈ walk ↔ t.hierarchy.Below j i
  length_le : walk.length ≤ t.size
  written : ∀ mark, setMarks t.checked walk mark =
    setMarks t.checked (t.hierarchy.subtree i) mark
  /-- The state is found on the same walk, which may be over before. -/
  state : ∃ seen, seen <+: walk ∧ (t.stateOf i ≠ .partly → seen = walk) ∧ ∀ seen' s,
    t.Scans false false [i] seen' s ↔ seen' = seen ∧ s = t.stateOf i

/-- A loop of a worklist that begins with the roots, with the nodes that are taken. -/
structure WalksFromRoots (t : SelectionTree) (next : Nat → List Nat) (walk : List Nat) : Prop where
  drains_iff : ∀ taken, Drains next t.hierarchy.roots taken ↔ taken = walk
  nodup : walk.Nodup
  length_le : walk.length ≤ t.size

theorem climbsFrom (hw : t.hierarchy.WellFormed) (hi : i < t.size) : t.ClimbsFrom i where
  root_last := hw.exists_root_last hi
  nodup := hw.nodup_lineage i
  length_le := hw.length_lineage_le hi
  path := by
    intro seen names
    obtain ⟨all, hrises, _, hall⟩ := hw.exists_rises t.hierarchy.nameUp [] i
    rw [hall fun _ _ => Option.some_ne_none _, along_nameUp, List.append_nil] at hrises
    exact hrises.run_iff
  check := by
    intro marks
    obtain ⟨seen, hrises, hseen⟩ := hw.exists_rises_parent visitMark marks i
    rw [along_visitMark] at hrises
    exact ⟨seen, hseen, fun _ _ => hrises.run_iff⟩
  uncheck := by
    intro marks
    obtain ⟨seen, hrises, hseen⟩ := hw.exists_rises_parent (visitClear t.hierarchy) marks i
    rw [along_visitClear] at hrises
    exact ⟨seen, hseen, fun _ _ => hrises.run_iff⟩

theorem exists_walksBelow (hw : t.hierarchy.WellFormed) (hi : i < t.size) :
    ∃ walk, t.WalksBelow i walk := by
  obtain ⟨hvisits, hnodup⟩ := hw.subtree_visits hi
  obtain ⟨walk, hwalk, hperm⟩ :=
    visits_of_perm_next (fun j => (List.reverse_perm (t.hierarchy.children j)).symm) hvisits
  refine ⟨walk, fun taken => drains_iff hwalk, hperm.nodup_iff.mp hnodup, fun j => ?_, ?_,
    fun mark => (setMarks_perm t.checked hperm mark).symm, ?_⟩
  · rw [← hperm.mem_iff, hw.mem_subtree_iff hi]
  · rw [← hperm.length_eq]
    exact length_traverse_le _ _ _
  · obtain ⟨seen, hscans⟩ := exists_scans_of_scan (scan_eq_stateOf hw hi)
    obtain ⟨hseen, hwhole⟩ := hscans.prefix_of_drains (drains_of_visits hwalk)
    exact ⟨seen, hseen, hwhole, fun _ _ => hscans.run_iff⟩

theorem walksFromRoots (hw : t.hierarchy.WellFormed) {next : Nat → List Nat}
    (hpart : ∀ i, next i = [] ∨ next i = t.hierarchy.children i) :
    t.WalksFromRoots next (traverse next t.size t.hierarchy.roots).1 := by
  obtain ⟨walk, hwalk, hnodup, heq⟩ := hw.exists_traverse_eq hpart
    (fun i hi => (hw.mem_roots.mp hi).1) hw.roots_apart
  have htaken : (traverse next t.size t.hierarchy.roots).1 = walk := congrArg Prod.fst heq
  refine ⟨fun taken => ?_, htaken ▸ hnodup, length_traverse_le _ _ _⟩
  rw [htaken]
  exact drains_iff hwalk

/-- **The loops over a tree end, and visit once**: in the tree of a listing with any marks, the
links lead up from every node to a root within as many steps as there are nodes, and the climbs of
checking, unchecking and of the path follow them; the worklist that writes marks takes each node at
or below its start exactly once, and that of a state does so too as long as it is not over; the
worklists behind the request and behind the rows take no node twice. -/
theorem loops_of_build {entries : List Entry} {built : SelectionTree}
    (hb : build entries = .ok built) (ht : t.hierarchy = built.hierarchy) :
    (∀ i < t.size, t.ClimbsFrom i ∧ ∃ walk, t.WalksBelow i walk) ∧
      (∃ walk, t.WalksFromRoots t.nextReported walk ∧ t.reported = walk.filter t.isReported) ∧
      t.WalksFromRoots t.nextShown t.visibleNodes := by
  have hw : t.hierarchy.WellFormed := ht ▸ (consistent_build hb).wellFormed
  exact ⟨fun i hi => ⟨climbsFrom hw hi, exists_walksBelow hw hi⟩,
    ⟨_, walksFromRoots hw t.nextReported_cases, rfl⟩, walksFromRoots hw t.nextShown_cases⟩

/-- The path of a file two levels down, the walk below its root, and the rows of a new tree. -/
theorem loops_of_build_twoRootListing : ∃ t, build twoRootListing = .ok t ∧ 3 < t.size ∧
    Rises t.hierarchy.parent t.hierarchy.nameUp [] (some 3) [3, 1, 0] ["app", "b.dll"] ∧
    (∃ walk, Drains (fun j => (t.hierarchy.children j).reverse) [0] walk ∧ walk.Nodup ∧
      3 ∈ walk ∧ walk.length ≤ 6) ∧
    Drains t.nextShown [0, 4] [0, 1, 4, 5] := by
  obtain ⟨t, hb⟩ : ∃ t, build twoRootListing = .ok t := ⟨_, rfl⟩
  have hshape : 3 < t.size ∧ t.size = 6 ∧ t.hierarchy.ancestors 3 = [1, 0] ∧
      t.hierarchy.pathNames 3 = ["app", "b.dll"] ∧ t.hierarchy.parent 3 = some 1 ∧
      t.hierarchy.parent 1 = some 0 ∧ t.hierarchy.roots = [0, 4] ∧
      t.visibleNodes = [0, 1, 4, 5] := by
    cases hb
    decide +kernel
  obtain ⟨hlt, hsize, hup, hnames, hparent, hroot, hroots, hrows⟩ := hshape
  obtain ⟨hloops, _, hshown⟩ := loops_of_build (t := t) hb rfl
  obtain ⟨walk, hwalk⟩ := (hloops 0 (Nat.lt_of_le_of_lt (Nat.zero_le 3) hlt)).2
  have hbelow : t.hierarchy.Below 3 0 := (below_of_parent hparent).trans (below_of_parent hroot)
  refine ⟨t, hb, hlt, ((hloops 3 hlt).1.path _ _).mpr ⟨by rw [hup], hnames.symm⟩,
    ⟨walk, (hwalk.drains_iff walk).mpr rfl, hwalk.nodup, (hwalk.mem_iff 3).mpr hbelow,
      hsize ▸ hwalk.length_le⟩, ?_⟩
  rw [← hroots, ← hrows]
  exact (hshown.drains_iff _).mpr rfl

end SelectionTree

end InstallerBrowser
