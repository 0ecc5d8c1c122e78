import InstallerBrowser.Proofs.Tree.Forest
import Mathlib.Data.List.Nodup

/-!
# InstallerBrowser.Proofs.Tree.Build

What `build` makes of a listing.

`buildResult` opens `build` once: a key is there twice, `link` gives up, an entry is missing from
the generations, or a tree is `Built`, whose parents come from `link`, the children from the
parents and the depths from the generations.  From this alone follows `wellFormed_of_build`.
-/

namespace InstallerBrowser

/-! ## Generations -/

/-- A node with the given number of ancestors. -/
inductive HasAncestors (parent : Nat → Option Nat) : Nat → Nat → Prop
  | root : parent i = none → HasAncestors parent 0 i
  | child : parent c = some p → HasAncestors parent k p → HasAncestors parent (k + 1) c

theorem hasAncestors_unique (h : HasAncestors parent k i) (h' : HasAncestors parent k' i) :
    k = k' := by
  induction h generalizing k' with
  | root hp =>
      cases h' with
      | root _ => rfl
      | child hp' _ => rw [hp] at hp'; cases hp'
  | child hp _ ih =>
      cases h' with
      | root hp' => rw [hp] at hp'; cases hp'
      | child hp' hk' =>
          rw [hp] at hp'
          cases hp'
          rw [ih hk']

/-- A node has no more ancestors than there are other nodes: with its ancestors it makes a list of
nodes, each of which has another number of ancestors. -/
theorem HasAncestors.lt_size (h : HasAncestors parent k i) (hi : i < n)
    (hrange : ∀ c p, parent c = some p → p < n) : k < n := by
  have hchain : ∃ chain : List Nat, chain.length = k + 1 ∧ chain.Nodup ∧
      ∀ a ∈ chain, a < n ∧ ∃ j ≤ k, HasAncestors parent j a := by
    induction h with
    | @root r hp => exact ⟨[r], rfl, List.nodup_singleton r, by simpa [hi] using .root hp⟩
    | @child c p k hp hk ih =>
        obtain ⟨chain, hlength, hnodup, hmem⟩ := ih (hrange c p hp)
        refine ⟨c :: chain, by rw [List.length_cons, hlength], List.nodup_cons.mpr ⟨?_, hnodup⟩, ?_⟩
        · intro hc
          obtain ⟨_, j, hj, hancestors⟩ := hmem c hc
          have heq := hasAncestors_unique hancestors (.child hp hk)
          omega
        · refine List.forall_mem_cons.mpr ⟨⟨hi, k + 1, Nat.le_refl _, .child hp hk⟩, fun a ha => ?_⟩
          obtain ⟨ha, j, hj, hancestors⟩ := hmem a ha
          exact ⟨ha, j, Nat.le_succ_of_le hj, hancestors⟩
  obtain ⟨chain, hlength, hnodup, hmem⟩ := hchain
  have hle := length_le_of_nodup hnodup fun a ha => (hmem a ha).1
  rwa [hlength] at hle

theorem length_generations_le (children : Nat → List Nat) (bound : Nat) (level : List Nat) :
    (generations children bound level).length ≤ bound := by
  induction bound generalizing level with
  | zero => exact Nat.le_refl 0
  | succ bound ih =>
      rw [generations]
      split
      · exact Nat.zero_le _
      · exact Nat.succ_le_succ (ih _)

/-- What holds of the first generation as the `k`-th, and passes on to children with the next
number, holds of each generation with its number. -/
theorem forall_mem_generations {children : Nat → List Nat} {P : Nat → Nat → Prop}
    (step : ∀ k p, P k p → ∀ c ∈ children p, P (k + 1) c) {level : List Nat}
    (hlevel : ∀ i ∈ level, P k i) (h : (generations children bound level)[n]? = some l) :
    ∀ i ∈ l, P (k + n) i := by
  induction bound generalizing level k n with
  | zero => simp [generations] at h
  | succ bound ih =>
      rw [generations] at h
      split at h
      · simp at h
      · cases n with
        | zero =>
            rw [List.getElem?_cons_zero] at h
            cases h
            exact hlevel
        | succ n =>
            rw [List.getElem?_cons_succ] at h
            have hnext : ∀ c ∈ level.flatMap children, P (k + 1) c := by
              intro c hc
              obtain ⟨p, hp, hcp⟩ := List.mem_flatMap.mp hc
              exact step k p (hlevel p hp) c hcp
            have hall := ih hnext h
            rwa [Nat.add_assoc, Nat.add_comm 1 n] at hall

/-- Behind each generation comes that of its children, as far as the bound goes. -/
theorem getElem?_generations_succ {children : Nat → List Nat} {level l : List Nat}
    (h : (generations children bound level)[k]? = some l) (hk : k + 1 < bound)
    (hne : l.flatMap children ≠ []) :
    (generations children bound level)[k + 1]? = some (l.flatMap children) := by
  induction k generalizing bound level with
  | zero =>
      obtain ⟨bound, rfl⟩ : ∃ b, bound = b + 2 := ⟨bound - 2, by omega⟩
      rw [generations] at h ⊢
      split at h
      · cases h
      · next hlevel =>
          rw [List.getElem?_cons_zero] at h
          cases h
          have hnext : (l.flatMap children).isEmpty = false := by simpa using hne
          rw [if_neg hlevel, List.getElem?_cons_succ, generations, hnext]
          rfl
  | succ k ih =>
      obtain ⟨bound, rfl⟩ : ∃ b, bound = b + 1 := ⟨bound - 1, by omega⟩
      rw [generations] at h ⊢
      split at h
      · cases h
      · next hlevel =>
          rw [List.getElem?_cons_succ] at h
          rw [if_neg hlevel, List.getElem?_cons_succ]
          exact ih h (by omega)

/-- A node with a number of ancestors below the bound is in the generation with that number. -/
theorem HasAncestors.mem_generations {children : Nat → List Nat} {roots : List Nat}
    (hroots : ∀ r < n, parent r = none → r ∈ roots)
    (hchildren : ∀ c p, parent c = some p → p < n ∧ c ∈ children p)
    (h : HasAncestors parent k i) (hi : i < n) (hk : k < bound) :
    ∃ l, (generations children bound roots)[k]? = some l ∧ i ∈ l := by
  induction h with
  | @root r hp =>
      have hr := hroots r hi hp
      obtain ⟨bound, rfl⟩ : ∃ b, bound = b + 1 := ⟨bound - 1, by omega⟩
      have hne : roots.isEmpty = false := by simpa using List.ne_nil_of_mem hr
      exact ⟨roots, by rw [generations, hne]; rfl, hr⟩
  | @child c p k hp _ ih =>
      obtain ⟨hpn, hc⟩ := hchildren c p hp
      obtain ⟨l, hl, hpl⟩ := ih hpn (by omega)
      have hmem : c ∈ l.flatMap children := List.mem_flatMap.mpr ⟨p, hpl, hc⟩
      exact ⟨_, getElem?_generations_succ hl hk (List.ne_nil_of_mem hmem), hmem⟩

namespace Hierarchy

/-! ## Keys -/

theorem nodup_of_firstDuplicate?_eq_none {seen keys : List NodeKey}
    (h : firstDuplicate? seen keys = none) : keys.Nodup ∧ ∀ k ∈ keys, k ∉ seen := by
  induction keys generalizing seen with
  | nil => exact ⟨List.nodup_nil, fun _ hk => by cases hk⟩
  | cons key rest ih =>
      rw [firstDuplicate?] at h
      split at h
      · cases h
      · next hkey =>
          obtain ⟨hnodup, hfresh⟩ := ih h
          constructor
          · exact List.nodup_cons.mpr ⟨fun hmem => hfresh key hmem List.mem_cons_self, hnodup⟩
          · intro k hk
            rcases List.mem_cons.mp hk with rfl | hk
            · exact hkey
            · exact fun hseen => hfresh k hk (List.mem_cons_of_mem _ hseen)

/-! ## Links -/

/-- The parent found for an entry has the key that the entry names. -/
theorem linkParent_cases {keys : List NodeKey} {e : Entry} {q : Option Nat}
    (h : linkParent keys e = .ok q) :
    e.parentId = none ∧ q = none ∨
      ∃ key i, e.parentId = some key ∧ keys[i]? = some key ∧ q = some i := by
  rw [linkParent] at h
  split at h
  · next hnone =>
      cases h
      exact .inl ⟨hnone, rfl⟩
  · next key hkey =>
      split at h
      · next i hidx =>
          cases h
          obtain ⟨hi, hget, _⟩ := List.idxOf?_eq_some_iff.mp hidx
          exact .inr ⟨key, i, hkey, List.getElem?_eq_some_iff.mpr ⟨hi, hget⟩, rfl⟩
      · cases h

/-- What `link` comes to at one entry: its parent is not found, it is marked as the main root and has
a parent or comes behind another, or what comes of the entries behind it decides. -/
inductive LinkStep (keys : List NodeKey) (i : Nat) (before : Option Nat) (e : Entry)
    (rest : List Entry) : Except ListingFault (List (Option Nat) × Option Nat) → Prop
  | missing {fault} : linkParent keys e = .error fault →
      LinkStep keys i before e rest (.error fault)
  | lowMainRoot {p} : e.isMainRoot = true → linkParent keys e = .ok (some p) →
      LinkStep keys i before e rest (.error (.mainRootWithParent e.node))
  | second {m} : e.isMainRoot = true → before = some m →
      LinkStep keys i before e rest (.error .secondMainRoot)
  | later {found fault} : (e.isMainRoot = false ∧ found = before ∨
        e.isMainRoot = true ∧ before = none ∧ found = some i) →
      link keys (i + 1) found rest = .error fault → LinkStep keys i before e rest (.error fault)
  | linked {parent found parents main} : linkParent keys e = .ok parent →
      (e.isMainRoot = false ∧ found = before ∨
        e.isMainRoot = true ∧ before = none ∧ parent = none ∧ found = some i) →
      link keys (i + 1) found rest = .ok (parents, main) →
      LinkStep keys i before e rest (.ok (parent :: parents, main))

theorem linkStep (keys : List NodeKey) (i : Nat) (before : Option Nat) (e : Entry)
    (rest : List Entry) : LinkStep keys i before e rest (link keys i before (e :: rest)) := by
  rw [link]
  cases hparent : linkParent keys e with
  | error fault => exact .missing hparent
  | ok parent =>
      cases hmark : e.isMainRoot with
      | false =>
          cases hlink : link keys (i + 1) before rest with
          | error fault =>
              simp only [bind, Except.bind, Bool.false_eq_true, if_false, hlink]
              exact .later (.inl ⟨hmark, rfl⟩) hlink
          | ok result =>
              simp only [bind, Except.bind, Bool.false_eq_true, if_false, hlink]
              exact .linked hparent (.inl ⟨hmark, rfl⟩) hlink
      | true =>
          cases parent with
          | some p => exact .lowMainRoot hmark hparent
          | none =>
              cases before with
              | some m => exact .second hmark rfl
              | none =>
                  cases hlink : link keys (i + 1) (some i) rest with
                  | error fault =>
                      simp only [bind, Except.bind, if_true, Option.isSome_none,
                        Bool.false_eq_true, if_false, hlink]
                      exact .later (.inr ⟨hmark, rfl, rfl⟩) hlink
                  | ok result =>
                      simp only [bind, Except.bind, if_true, Option.isSome_none,
                        Bool.false_eq_true, if_false, hlink]
                      exact .linked hparent (.inr ⟨hmark, rfl, rfl, rfl⟩) hlink

theorem link_cons_eq_ok {keys : List NodeKey} {e : Entry} {rest : List Entry}
    (h : link keys i before (e :: rest) = .ok (parents, main)) :
    ∃ parent found parents', linkParent keys e = .ok parent ∧
      (e.isMainRoot = false ∧ found = before ∨
        e.isMainRoot = true ∧ before = none ∧ parent = none ∧ found = some i) ∧
      link keys (i + 1) found rest = .ok (parents', main) ∧ parents = parent :: parents' := by
  have hstep := linkStep keys i before e rest
  rw [h] at hstep
  cases hstep with
  | linked hparent hfound hlink => exact ⟨_, _, _, hparent, hfound, hlink, rfl⟩

/-- `link` finds one parent for each entry. -/
theorem length_of_link {keys : List NodeKey} {entries : List Entry}
    (h : link keys i before entries = .ok (parents, main)) : parents.length = entries.length := by
  induction entries generalizing i before parents with
  | nil =>
      rw [link] at h
      cases h
      rfl
  | cons e rest ih =>
      obtain ⟨parent, found, parents', _, _, hlink, rfl⟩ := link_cons_eq_ok h
      rw [List.length_cons, List.length_cons, ih hlink]

theorem linkParent_of_link {keys : List NodeKey} {entries : List Entry} {c : Nat}
    (h : link keys i before entries = .ok (parents, main)) (hp : parents[c]? = some p) :
    ∃ e, entries[c]? = some e ∧ linkParent keys e = .ok p := by
  induction entries generalizing i before parents c with
  | nil =>
      rw [link] at h
      cases h
      cases hp
  | cons e rest ih =>
      obtain ⟨parent, found, parents', hparent, _, hlink, rfl⟩ := link_cons_eq_ok h
      cases c with
      | zero =>
          rw [List.getElem?_cons_zero] at hp
          cases hp
          exact ⟨e, rfl, hparent⟩
      | succ c =>
          rw [List.getElem?_cons_succ] at hp ⊢
          exact ih hlink hp

theorem parent_lt_of_link {entries : List Entry} {c : Nat}
    (h : link (entries.map (·.node)) i before entries = .ok (parents, main))
    (hp : parents[c]? = some (some p)) : p < parents.length := by
  obtain ⟨e, _, hparent⟩ := linkParent_of_link h hp
  rcases linkParent_cases hparent with ⟨_, hnone⟩ | ⟨key, i, _, hkey, hsome⟩
  · cases hnone
  · cases hsome
    have hlt := (List.getElem?_eq_some_iff.mp hkey).choose
    rwa [List.length_map, ← length_of_link h] at hlt

/-- What `link` says of the entries that are marked as the main root: there is one at most, and it
has no parent. -/
theorem mainRoot_of_link {keys : List NodeKey} {entries : List Entry} {main before : Option Nat}
    (h : link keys i before entries = .ok (parents, main)) :
    main = before.or ((entries.findIdx? (·.isMainRoot)).map (i + ·)) ∧
      before.toList.length + entries.countP (·.isMainRoot) ≤ 1 ∧
      ∀ e ∈ entries, e.isMainRoot = true → e.parentId = none := by
  induction entries generalizing i before parents with
  | nil =>
      rw [link] at h
      cases h
      cases main <;> simp
  | cons e rest ih =>
      obtain ⟨parent, found, parents', hparent, hfound, hlink, rfl⟩ := link_cons_eq_ok h
      obtain ⟨hmain, hcount, hroots⟩ := ih hlink
      rw [List.findIdx?_cons]
      rcases hfound with ⟨hmark, rfl⟩ | ⟨hmark, rfl, rfl, rfl⟩
      · refine ⟨?_, ?_, ?_⟩
        · rw [hmain, hmark]
          cases rest.findIdx? (·.isMainRoot) <;> simp [Nat.add_assoc, Nat.add_comm 1]
        · simpa [hmark] using hcount
        · simpa [hmark] using hroots
      · rcases linkParent_cases hparent with ⟨hnone, _⟩ | ⟨_, _, _, _, hsome⟩
        · refine ⟨?_, ?_, ?_⟩
          · rw [hmain, hmark]
            rfl
          · simpa [hmark, Nat.add_comm] using hcount
          · simpa [hnone] using hroots
        · cases hsome

/-- The place of an entry in a listing that is linked: it has no parent, and none was found, or its
parent is the entry at the place found. -/
theorem parent_cases_of_link {entries : List Entry} {e : Entry} {c : Nat} {main : Option Nat}
    (hlink : link (entries.map (·.node)) 0 none entries = .ok (parents, main))
    (he : entries[c]? = some e) :
    e.parentId = none ∧ parents[c]? = some none ∨
      ∃ p i, e.parentId = some p.node ∧ entries[i]? = some p ∧ parents[c]? = some (some i) := by
  have hc : c < parents.length := length_of_link hlink ▸ (List.getElem?_eq_some_iff.mp he).choose
  have hget := List.getElem?_eq_getElem hc
  obtain ⟨e', he', hparent⟩ := linkParent_of_link hlink hget
  obtain rfl : e = e' := Option.some.inj (he.symm.trans he')
  rcases linkParent_cases hparent with ⟨hnone, hq⟩ | ⟨key, i, hkey, hi, hq⟩
  · exact .inl ⟨hnone, by rw [hget, hq]⟩
  · rw [List.getElem?_map, Option.map_eq_some_iff] at hi
    obtain ⟨p, hp, rfl⟩ := hi
    exact .inr ⟨p, i, hkey, hp, by rw [hget, hq]⟩

theorem mem_withParent_iff {parents : List (Option Nat)} :
    c ∈ withParent parents q ↔ parents[c]? = some q := by
  simp only [withParent, List.mem_map, List.mem_filter, List.mem_zipIdx_iff_getElem?, Prod.exists]
  constructor
  · rintro ⟨p, i, ⟨hget, heq⟩, rfl⟩
    rw [← eq_of_beq heq]
    exact hget
  · exact fun hget => ⟨q, c, ⟨hget, BEq.rfl⟩, rfl⟩

/-- Places picked from a list are in order. -/
theorem positions_sorted (xs : List α) (q : α × Nat → Bool) :
    ((xs.zipIdx.filter q).map (·.2)).Pairwise (· < ·) := by
  have hsorted : (xs.zipIdx.map (·.2)).Pairwise (· < ·) := by
    rw [List.zipIdx_map_snd]
    exact List.pairwise_lt_range'
  rw [List.pairwise_map] at hsorted
  exact List.pairwise_map.mpr (hsorted.filter _)

theorem withParent_sorted (parents : List (Option Nat)) (q : Option Nat) :
    (withParent parents q).Pairwise (· < ·) := positions_sorted parents _

/-! ## The nodes -/

/-- The generations of the nodes with the given parents, the roots first. -/
def levels (parents : List (Option Nat)) : List (List Nat) :=
  generations (fun i => withParent parents (some i)) parents.length (withParent parents none)

/-- All that `build` answers with. -/
structure Built (entries : List Entry) (parents : List (Option Nat)) (h : Hierarchy) : Prop where
  nodup_keys : (entries.map (·.node)).Nodup
  linked : link (entries.map (·.node)) 0 none entries = .ok (parents, h.mainRoot)
  size_eq : h.size = entries.length
  node? : ∀ i, h.node? i = entries[i]?.bind fun e => parents[i]?.map fun p =>
    Node.mk e p (withParent parents (some i)) (generationOf (levels parents) i)
  roots : h.roots = withParent parents none
  order : h.order = (levels parents).flatten
  complete : ∀ i < entries.length, i ∈ h.order

/-- The generation of a number of ancestors holds nodes with that many. -/
theorem hasAncestors_of_mem_levels {parents : List (Option Nat)}
    (hl : (levels parents)[n]? = some l) (hi : i ∈ l) :
    i < parents.length ∧ HasAncestors (fun c => parents[c]?.join) n i := by
  have hlt : ∀ {c : Nat} {q}, c ∈ withParent parents q → c < parents.length := fun hc =>
    (List.getElem?_eq_some_iff.mp (mem_withParent_iff.mp hc)).choose
  have hstep : ∀ k p, p < parents.length ∧ HasAncestors (fun c => parents[c]?.join) k p →
      ∀ c ∈ withParent parents (some p),
        c < parents.length ∧ HasAncestors (fun c => parents[c]?.join) (k + 1) c :=
    fun k p hp c hc =>
      ⟨hlt hc, .child (Option.join_eq_some_iff.mpr (mem_withParent_iff.mp hc)) hp.2⟩
  have hroots : ∀ r ∈ withParent parents none,
      r < parents.length ∧ HasAncestors (fun c => parents[c]?.join) 0 r := fun r hr =>
    ⟨hlt hr, .root (by rw [mem_withParent_iff.mp hr]; rfl)⟩
  have hall := forall_mem_generations hstep hroots hl i hi
  rwa [Nat.zero_add] at hall

theorem getD_map_withParent {parents : List (Option Nat)}
    (hrange : ∀ q, some q ∈ parents → q < parents.length) (i : Nat) :
    ((List.range parents.length).map fun i => withParent parents (some i)).toArray.getD i [] =
      withParent parents (some i) := by
  rw [Array.getD_eq_getD_getElem?, List.getElem?_toArray, List.getElem?_map]
  by_cases hi : i < parents.length
  · rw [List.getElem?_range hi]
    rfl
  · rw [List.getElem?_eq_none (by simpa using hi)]
    symm
    rw [Option.map_none, Option.getD_none, List.eq_nil_iff_forall_not_mem]
    intro c hc
    exact hi (hrange i (List.mem_of_getElem? (mem_withParent_iff.mp hc)))

/-- The nodes that `build` makes, one by one. -/
theorem getElem?_mapIdx_zip {entries : List Entry} {parents : List (Option Nat)}
    (hlen : parents.length = entries.length) (children : Nat → List Nat) (depth : Nat → Nat)
    (i : Nat) :
    ((entries.zip (parents.zip ((List.range parents.length).map children))).mapIdx
      fun i (e, p, c) => Node.mk e p c (depth i))[i]? =
      entries[i]?.bind fun e => parents[i]?.map fun p => Node.mk e p (children i) (depth i) := by
  rw [List.getElem?_mapIdx, List.zip, List.getElem?_zipWith', List.zip, List.getElem?_zipWith',
    List.getElem?_map]
  by_cases hi : i < entries.length
  · rw [List.getElem?_range (hlen ▸ hi), List.getElem?_eq_getElem hi,
      List.getElem?_eq_getElem (hlen.symm ▸ hi)]
    rfl
  · rw [List.getElem?_eq_none (Nat.le_of_not_lt hi)]
    rfl

/-- What building a tree comes to. -/
inductive BuildResult (entries : List Entry) : Except ListingFault Hierarchy → Prop
  | duplicate {key} : firstDuplicate? [] (entries.map (·.node)) = some key →
      BuildResult entries (.error (.duplicateKey key))
  | unlinked {fault} : link (entries.map (·.node)) 0 none entries = .error fault →
      BuildResult entries (.error fault)
  | stray {parents main i e} : (entries.map (·.node)).Nodup →
      link (entries.map (·.node)) 0 none entries = .ok (parents, main) → entries[i]? = some e →
      i ∉ (levels parents).flatten → (∀ j < i, j ∈ (levels parents).flatten) →
      BuildResult entries (.error (.cycle e.node))
  | built {parents h} : Built entries parents h → BuildResult entries (.ok h)

theorem buildResult (entries : List Entry) : BuildResult entries (build entries) := by
  rw [build]
  split
  · next hkey => exact .duplicate hkey
  · next hkeys =>
      have hnodup := (nodup_of_firstDuplicate?_eq_none hkeys).1
      cases hlink : link (entries.map (·.node)) 0 none entries with
      | error fault => exact .unlinked hlink
      | ok result =>
          obtain ⟨parents, main⟩ := result
          have hlen := length_of_link hlink
          have hrange : ∀ q, some q ∈ parents → q < parents.length := by
            intro q hq
            obtain ⟨c, hc⟩ := List.mem_iff_getElem?.mp hq
            exact parent_lt_of_link hlink hc
          simp only [bind, Except.bind, getD_map_withParent hrange, ← hlen]
          split
          · next i hstray =>
              have hi : i < entries.length :=
                hlen ▸ List.mem_range.mp (List.mem_of_find?_eq_some hstray)
              have hkey : (entries.map (·.node)).getD i 0 = entries[i].node := by
                simp [hi]
              rw [hkey]
              refine .stray hnodup hlink (List.getElem?_eq_getElem hi) ?_ fun j hj => ?_
              · simpa [levels] using List.find?_some hstray
              · simpa [levels] using (List.find?_range_eq_some.mp hstray).2.2 j hj
          · next hstray =>
              refine .built ⟨hnodup, hlink, ?_, fun i => ?_, rfl, rfl,
                fun i hi => ?_⟩
              · simp [size, hlen]
              · rw [node?, List.getElem?_toArray, getElem?_mapIdx_zip hlen]
                rfl
              · rw [List.find?_eq_none] at hstray
                simpa [levels] using hstray i (List.mem_range.mpr (hlen ▸ hi))

theorem build_eq_ok {entries : List Entry} (hb : build entries = .ok h) :
    ∃ parents, Built entries parents h := by
  have hbuild := buildResult entries
  rw [hb] at hbuild
  cases hbuild with
  | built hbuilt => exact ⟨_, hbuilt⟩

/-! ## The hierarchy -/

namespace Built

variable {entries : List Entry} {parents : List (Option Nat)}

theorem length_eq (hb : Built entries parents h) : parents.length = entries.length :=
  length_of_link hb.linked

theorem entry_eq (hb : Built entries parents h) (i : Nat) :
    (h.node? i).map (·.entry) = entries[i]? := by
  rw [hb.node?]
  by_cases hi : i < entries.length
  · rw [List.getElem?_eq_getElem hi, List.getElem?_eq_getElem (hb.length_eq.symm ▸ hi)]
    rfl
  · rw [List.getElem?_eq_none (Nat.le_of_not_lt hi)]
    rfl

theorem parent_eq (hb : Built entries parents h) (c : Nat) : h.parent c = parents[c]?.join := by
  rw [Hierarchy.parent, hb.node?]
  cases he : entries[c]? with
  | none =>
      rw [List.getElem?_eq_none_iff, ← hb.length_eq, ← List.getElem?_eq_none_iff] at he
      rw [he]
      rfl
  | some e => cases parents[c]? <;> rfl

theorem parent_eq_some_iff (hb : Built entries parents h) :
    h.parent c = some p ↔ parents[c]? = some (some p) := by
  rw [hb.parent_eq, Option.join_eq_some_iff]

theorem parent_lt_size (hb : Built entries parents h) (hp : h.parent c = some p) : p < h.size := by
  rw [hb.size_eq, ← hb.length_eq]
  exact parent_lt_of_link hb.linked (hb.parent_eq_some_iff.mp hp)

theorem children_eq (hb : Built entries parents h) (hi : i < h.size) :
    h.children i = withParent parents (some i) := by
  rw [hb.size_eq] at hi
  rw [Hierarchy.children, hb.node?, List.getElem?_eq_getElem hi,
    List.getElem?_eq_getElem (hb.length_eq.symm ▸ hi)]
  rfl

theorem mem_children_iff (hb : Built entries parents h) :
    c ∈ h.children p ↔ h.parent c = some p := by
  by_cases hp : p < h.size
  · rw [hb.children_eq hp, mem_withParent_iff, hb.parent_eq_some_iff]
  · have hnone : h.node? p = none := Array.getElem?_eq_none (Nat.le_of_not_lt hp)
    rw [Hierarchy.children, hnone]
    exact ⟨fun hc => (List.not_mem_nil hc).elim, fun hc => (hp (hb.parent_lt_size hc)).elim⟩

theorem depth_eq (hb : Built entries parents h) (hi : i < h.size) :
    h.depth i = generationOf (levels parents) i := by
  rw [hb.size_eq] at hi
  rw [Hierarchy.depth, hb.node?, List.getElem?_eq_getElem hi,
    List.getElem?_eq_getElem (hb.length_eq.symm ▸ hi)]
  rfl

theorem hasAncestors_of_mem_levels (hb : Built entries parents h)
    (hl : (levels parents)[n]? = some l) (hi : i ∈ l) :
    i < h.size ∧ HasAncestors h.parent n i := by
  rw [hb.size_eq, ← hb.length_eq, funext hb.parent_eq]
  exact Hierarchy.hasAncestors_of_mem_levels hl hi

/-- The depth of a node is the number of its ancestors. -/
theorem hasAncestors_depth (hb : Built entries parents h) (hi : i < h.size) :
    h.depth i < h.size ∧ HasAncestors h.parent (h.depth i) i := by
  have hmem := hb.complete i (hb.size_eq ▸ hi)
  rw [hb.order, List.mem_flatten] at hmem
  obtain ⟨l, hl, hil⟩ := hmem
  have hlt : generationOf (levels parents) i < (levels parents).length :=
    List.findIdx_lt_length_of_exists ⟨l, hl, by simpa using hil⟩
  have hget := List.getElem?_eq_getElem hlt
  have hcontains : i ∈ (levels parents)[generationOf (levels parents) i] :=
    List.contains_iff_mem.mp (List.findIdx_getElem (w := hlt))
  have hle := length_generations_le (fun i => withParent parents (some i)) parents.length
    (withParent parents none)
  rw [hb.depth_eq hi]
  constructor
  · rw [hb.size_eq, ← hb.length_eq]
    exact Nat.lt_of_lt_of_le hlt hle
  · exact (hb.hasAncestors_of_mem_levels hget hcontains).2

theorem depth_of_parent (hb : Built entries parents h) (hp : h.parent c = some p) :
    h.depth c = h.depth p + 1 := by
  have hc := (hb.hasAncestors_depth (lt_size_of_parent_eq_some hp)).2
  exact hasAncestors_unique hc (.child hp (hb.hasAncestors_depth (hb.parent_lt_size hp)).2)

theorem order_sorted (hb : Built entries parents h) :
    h.order.Pairwise fun i j => h.depth i ≤ h.depth j := by
  have hdepth : ∀ n (hn : n < (levels parents).length), ∀ i ∈ (levels parents)[n],
      h.depth i = n := by
    intro n hn i hi
    obtain ⟨hlt, hk⟩ := hb.hasAncestors_of_mem_levels (List.getElem?_eq_getElem hn) hi
    exact hasAncestors_unique (hb.hasAncestors_depth hlt).2 hk
  rw [hb.order, List.pairwise_flatten, List.pairwise_iff_getElem]
  constructor
  · intro l hl
    obtain ⟨n, hn, rfl⟩ := List.mem_iff_getElem.mp hl
    refine List.pairwise_of_forall_mem_list fun i hi j hj => ?_
    exact Nat.le_of_eq ((hdepth n hn i hi).trans (hdepth n hn j hj).symm)
  · intro m n hm hn hmn i hi j hj
    rw [hdepth m hm i hi, hdepth n hn j hj]
    exact Nat.le_of_lt hmn

theorem key_eq (hb : Built entries parents h) (hi : i < entries.length) :
    h.key i = entries[i].node := by
  rw [Hierarchy.key, hb.node?, List.getElem?_eq_getElem hi,
    List.getElem?_eq_getElem (hb.length_eq.symm ▸ hi)]
  rfl

theorem key_injective (hb : Built entries parents h) (hi : i < h.size) (hj : j < h.size)
    (hkey : h.key i = h.key j) : i = j := by
  rw [hb.size_eq] at hi hj
  rw [hb.key_eq hi, hb.key_eq hj] at hkey
  have hi' : i < (entries.map (·.node)).length := by rwa [List.length_map]
  have hj' : j < (entries.map (·.node)).length := by rwa [List.length_map]
  have hkeys : (entries.map (·.node))[i] = (entries.map (·.node))[j] := by
    rw [List.getElem_map, List.getElem_map, hkey]
  exact hb.nodup_keys.getElem_inj_iff.mp hkeys

theorem root_of_isMainRoot (hb : Built entries parents h) (hm : h.isMainRoot i = true) :
    i < h.size ∧ h.parent i = none := by
  have hmain : h.mainRoot = some i := by simpa [isMainRoot] using hm
  obtain ⟨hfound, _, hroots⟩ := mainRoot_of_link hb.linked
  have hidx : entries.findIdx? (·.isMainRoot) = some i := by simpa [hmain] using hfound.symm
  obtain ⟨hi, hmark, _⟩ := List.findIdx?_eq_some_iff_getElem.mp hidx
  rw [hb.size_eq, hb.parent_eq]
  rcases parent_cases_of_link hb.linked (List.getElem?_eq_getElem hi) with
    ⟨_, hget⟩ | ⟨p, _, hparent, _⟩
  · exact ⟨hi, by rw [hget]; rfl⟩
  · cases (hroots _ (List.getElem_mem hi) hmark).symm.trans hparent

end Built

/-- The number of a node is the place of its entry in the listing. -/
theorem entry_of_build {entries : List Entry} (hb : build entries = .ok h) (i : Nat) :
    (h.node? i).map (·.entry) = entries[i]? := by
  obtain ⟨parents, hb⟩ := build_eq_ok hb
  exact hb.entry_eq i

/-- A listing that `build` accepts makes a forest. -/
theorem wellFormed_of_build {entries : List Entry} (hb : build entries = .ok h) :
    h.WellFormed := by
  obtain ⟨parents, hb⟩ := build_eq_ok hb
  exact {
    mem_children := hb.mem_children_iff
    mem_roots := by
      intro i
      rw [hb.roots, mem_withParent_iff, hb.parent_eq, hb.size_eq, ← hb.length_eq]
      by_cases hi : i < parents.length
      · simp [hi]
      · simp [hi]
    children_sorted := by
      intro i
      by_cases hi : i < h.size
      · rw [hb.children_eq hi]
        exact withParent_sorted _ _
      · have hnone : h.node? i = none := Array.getElem?_eq_none (Nat.le_of_not_lt hi)
        rw [Hierarchy.children, hnone]
        exact List.Pairwise.nil
    roots_sorted := by
      rw [hb.roots]
      exact withParent_sorted _ _
    parent_lt_size := hb.parent_lt_size
    depth_lt_size := fun hi => (hb.hasAncestors_depth hi).1
    depth_of_parent := hb.depth_of_parent
    mem_order := fun hi => hb.complete _ (hb.size_eq ▸ hi)
    order_sorted := hb.order_sorted
    root_of_isMainRoot := hb.root_of_isMainRoot
    key_injective := hb.key_injective }

end Hierarchy

end InstallerBrowser
