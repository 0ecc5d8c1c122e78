import Mathlib.Data.Nat.Find
import InstallerBrowser.Proofs.Storage.Names
import InstallerBrowser.Proofs.Storage.Same

/-!
# InstallerBrowser.Proofs.Storage.Series

The search for the first output that is free.

The search counts up until it finds a candidate that nothing is at (`Search`).  It has no bound of
its own: it ends since different numbers give different paths (`eq_of_same_candidate`), which a
store has too few entries to take all.  The bound of `firstFree` is never what ends it
(`firstFree_of_search`).
-/

namespace InstallerBrowser

open FileStore

variable {store : FileStore} {free : Nat → Prop} {path : Nat → String} {dir installer : String}
  {bound i j n : Nat}

/-! ## Searching -/

/-- Counting up from a number ends at the first one that is free. -/
inductive Search (free : Nat → Prop) : Nat → Nat → Prop
  | stop {i : Nat} : free i → Search free i i
  | next {i n : Nat} : ¬ free i → Search free (i + 1) n → Search free i n

theorem search_iff : Search free i n ↔ i ≤ n ∧ free n ∧ ∀ k, i ≤ k → k < n → ¬ free k := by
  constructor
  · intro h
    induction h with
    | stop hfree => exact ⟨Nat.le_refl _, hfree, fun k hle hlt => absurd hlt (Nat.not_lt.mpr hle)⟩
    | next htaken _ ih =>
        obtain ⟨hle, hfree, hbefore⟩ := ih
        refine ⟨Nat.le_of_succ_le hle, hfree, fun k hk hlt => ?_⟩
        rcases Nat.eq_or_lt_of_le hk with rfl | hk
        · exact htaken
        · exact hbefore k hk hlt
  · rintro ⟨hle, hfree, hbefore⟩
    obtain ⟨d, rfl⟩ := Nat.exists_eq_add_of_le hle
    clear hle
    induction d generalizing i with
    | zero => exact .stop hfree
    | succ d ih =>
        refine .next (hbefore i (Nat.le_refl i) (by omega)) ?_
        have hsum : i + (d + 1) = i + 1 + d := by omega
        rw [hsum] at hfree hbefore ⊢
        exact ih hfree fun k hk hlt => hbefore k (by omega) hlt

/-- A search that ends within the bound is the bounded one. -/
theorem firstFree_of_search (h : Search (fun k => store.pathExists (path k) = false) i n)
    (hbound : n ≤ i + bound) : firstFree store path bound i = n := by
  induction h generalizing bound with
  | stop hfree =>
      cases bound with
      | zero => rfl
      | succ bound => rw [firstFree, if_neg (by rw [hfree]; decide)]
  | next htaken hrest ih =>
      have hle := (search_iff.mp hrest).1
      obtain ⟨bound, rfl⟩ : ∃ b, bound = b + 1 := ⟨bound - 1, by omega⟩
      rw [firstFree, if_pos (by simpa using htaken)]
      exact ih (by omega)

/-! ## Candidates -/

/-- **Different numbers give different paths.** -/
theorem eq_of_same_candidate
    (h : Path.same (candidate dir installer i) (candidate dir installer j) = true) : i = j := by
  obtain ⟨parts, last, hparts⟩ :=
    Text.exists_splitOn_eq '/' (Path.join dir (outputStem installer)).toList
  have hproper : ∀ k, Path.properParts (candidate dir installer k) =
      parts.filter (fun part => !Path.isSkipped part) ++ [last ++ (seriesSuffix k).toList] := by
    intro k
    have hproper : IsProper (String.ofList (last ++ (seriesSuffix k).toList)) := by
      rw [String.ofList_append, String.ofList_toList]
      exact isProper_append_seriesSuffix (String.ofList last) k
    have hlast := isSkipped_of_isProper hproper
    rw [candidate_eq, Path.properParts, String.toList_append,
      Text.splitOn_append hparts (slash_not_mem_seriesSuffix k), List.filter_append]
    simp [hlast]
  have hsame : Path.properParts (candidate dir installer i) =
      Path.properParts (candidate dir installer j) := by
    rw [Path.properParts_eq_components, Path.properParts_eq_components, beq_iff_eq.mp h]
  rw [hproper, hproper] at hsame
  have hlast := List.singleton_inj.mp (List.append_cancel_left hsame)
  exact seriesSuffix_injective (String.toList_inj.mp (List.append_cancel_left hlast))

/-! ## The next output -/

/-- **The search ends at the first candidate that is free**: from 0 on it counts up to a number that
is no greater than the number of entries, at whose path there is nothing, while there is something
at the path of every smaller one; that path is the next output.  No two numbers have the same
path. -/
theorem search_nextOutputPath (store : FileStore) (dir installer : String) :
    ∃ n ≤ store.entries.length,
      Search (fun i => store.pathExists (candidate dir installer i) = false) 0 n ∧
      nextOutputPath store dir installer = candidate dir installer n ∧
      store.pathExists (candidate dir installer n) = false ∧
      (∀ i < n, store.pathExists (candidate dir installer i) = true) ∧
      ∀ i j, Path.same (candidate dir installer i) (candidate dir installer j) = true → i = j := by
  obtain ⟨m, hm, hfree⟩ := exists_free_candidate store dir installer
  have hexists : ∃ i, store.pathExists (candidate dir installer i) = false := ⟨m, hfree⟩
  have hfirst : Nat.find hexists ≤ store.entries.length :=
    Nat.le_of_lt_succ (Nat.lt_of_le_of_lt (Nat.find_min' hexists hfree) hm)
  have hsearch : Search (fun i => store.pathExists (candidate dir installer i) = false) 0
      (Nat.find hexists) :=
    search_iff.mpr ⟨Nat.zero_le _, Nat.find_spec hexists, fun k _ hk => Nat.find_min hexists hk⟩
  refine ⟨Nat.find hexists, hfirst, hsearch, ?_, Nat.find_spec hexists, fun i hi => ?_,
    fun i j h => eq_of_same_candidate h⟩
  · exact congrArg (candidate dir installer) (firstFree_of_search hsearch (by omega))
  · simpa using Nat.find_min hexists hi

end InstallerBrowser
