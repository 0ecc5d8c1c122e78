import Mathlib.Data.List.Nodup
import Mathlib.Data.List.Perm.Subperm
import InstallerBrowser.Proofs.Storage.Places

/-!
# InstallerBrowser.Proofs.Storage.Names

The names of outputs.

The candidates for an output share a base and differ in a suffix (`candidate_eq`), so no two lead
to the same place.  A store has too few entries to take them all, and the first one that is free
is found (`pathExists_nextOutputPath`).
-/

namespace InstallerBrowser

open FileStore

variable {store : FileStore} {place : Place} {dir installer stem name suffix : String} {i j : Nat}

/-! ## The series of candidates -/

/-- What is put behind the base of an output's path. -/
def seriesSuffix (i : Nat) : String := if i = 0 then ".zip" else "_(" ++ toString i ++ ").zip"

theorem outputName_eq (stem : String) (i : Nat) : outputName stem i = stem ++ seriesSuffix i := by
  rw [outputName, seriesSuffix]
  split
  · rfl
  · simp only [String.append_assoc]

theorem exists_seriesSuffix_eq (i : Nat) : ∃ front, seriesSuffix i = front ++ ".zip" := by
  rw [seriesSuffix]
  split
  · exact ⟨"", String.empty_append.symm⟩
  · have hlast : ").zip" = ")" ++ ".zip" := by decide
    rw [hlast, ← String.append_assoc]
    exact ⟨_, rfl⟩

theorem slash_not_mem_toString (i : Nat) : '/' ∉ (toString i).toList := by
  intro hmem
  have hdigits : '/' ∈ Nat.toDigits 10 i := by
    rwa [Nat.toString_eq_repr, Nat.repr, String.toList_ofList] at hmem
  exact absurd (Nat.isDigit_of_mem_toDigits (by decide) (by decide) hdigits) (by decide)

theorem slash_not_mem_seriesSuffix (i : Nat) : '/' ∉ (seriesSuffix i).toList := by
  rw [seriesSuffix]
  split
  · decide
  · rw [String.toList_append, String.toList_append, List.mem_append, List.mem_append]
    rintro ((hmem | hmem) | hmem)
    · revert hmem
      decide
    · exact slash_not_mem_toString i hmem
    · revert hmem
      decide

/-- The first suffix has no number. -/
theorem zip_ne_numbered (digits : String) : ".zip" ≠ "_(" ++ digits ++ ").zip" := by
  intro h
  have hhead := congrArg (fun text : String => text.toList.head?) h
  have hzip : ".zip".toList = ['.', 'z', 'i', 'p'] := by decide
  have hopen : "_(".toList = ['_', '('] := by decide
  simp only [String.toList_append, hzip, hopen, List.cons_append, List.head?_cons] at hhead
  cases hhead

theorem toString_nat_injective (h : toString i = toString j) : i = j := by
  rw [Nat.toString_eq_repr, Nat.toString_eq_repr, Nat.repr, Nat.repr, String.ofList_inj] at h
  have hvalue := congrArg (Nat.ofDigitChars 10 · 0) h
  simpa only [Nat.ofDigitChars_toDigits (show 1 < 10 by decide) (Nat.le_refl 10)] using hvalue

/-- No two numbers give the same suffix. -/
theorem seriesSuffix_injective (h : seriesSuffix i = seriesSuffix j) : i = j := by
  rw [seriesSuffix, seriesSuffix] at h
  split at h <;> split at h
  · next hi hj => rw [hi, hj]
  · exact absurd h (zip_ne_numbered _)
  · exact absurd h.symm (zip_ne_numbered _)
  · rw [String.append_left_inj, String.append_right_inj] at h
    exact toString_nat_injective h

theorem isProper_append_seriesSuffix (last : String) (i : Nat) :
    IsProper (last ++ seriesSuffix i) := by
  obtain ⟨front, hfront⟩ := exists_seriesSuffix_eq i
  refine isProper_of_length ?_
  rw [hfront, String.length_append, String.length_append]
  exact Nat.lt_add_left _ (Nat.lt_add_left _ (by decide))

theorem join_append (hsuffix : '/' ∉ suffix.toList) :
    Path.join dir (name ++ suffix) = Path.join dir name ++ suffix := by
  rw [Path.join, Path.join, isAbsolute_append hsuffix]
  split
  · rfl
  · split
    · exact (String.append_assoc ..).symm
    · exact (String.append_assoc ..).symm

/-- The candidate with a number, for an output in a directory. -/
def candidate (dir installer : String) (i : Nat) : String :=
  Path.join dir (outputName (outputStem installer) i)

theorem candidate_eq (dir installer : String) (i : Nat) :
    candidate dir installer i = Path.join dir (outputStem installer) ++ seriesSuffix i := by
  rw [candidate, outputName_eq, join_append (slash_not_mem_seriesSuffix i)]

/-- A path that an output can have. -/
def IsOutputPath (path : String) : Prop := ∃ base : String, path = base ++ ".zip"

theorem isOutputPath_nextOutputPath (store : FileStore) (dir installer : String) :
    IsOutputPath (nextOutputPath store dir installer) := by
  have hnext : ∃ i, nextOutputPath store dir installer = candidate dir installer i := ⟨_, rfl⟩
  obtain ⟨i, hi⟩ := hnext
  obtain ⟨front, hfront⟩ := exists_seriesSuffix_eq i
  rw [hi, candidate_eq, hfront, ← String.append_assoc]
  exact ⟨_, rfl⟩

/-- The places of candidates with different numbers are different. -/
theorem candidate_place_injective (hi : store.resolve (candidate dir installer i) = .ok place)
    (hj : store.resolve (candidate dir installer j) = .ok place) : i = j := by
  obtain ⟨names, last, hnames⟩ := exists_pathNames_append (Path.join dir (outputStem installer))
  rw [candidate_eq, resolve_eq_ok (hnames _ (slash_not_mem_seriesSuffix _))
    (isProper_append_seriesSuffix last _)] at hi hj
  obtain ⟨_, _, _, _, _, rfl⟩ := hi
  obtain ⟨_, _, _, _, _, hsame⟩ := hj
  have hlast := List.singleton_inj.mp (List.append_inj' hsame rfl).2
  exact seriesSuffix_injective ((String.append_right_inj last).mp hlast)

/-- A candidate leads below a directory. -/
theorem candidate_place_ne_root (h : store.resolve (candidate dir installer i) = .ok place) :
    place ≠ [] := by
  obtain ⟨names, last, hnames⟩ := exists_pathNames_append (Path.join dir (outputStem installer))
  rw [candidate_eq, resolve_eq_ok (hnames _ (slash_not_mem_seriesSuffix _))
    (isProper_append_seriesSuffix last _)] at h
  obtain ⟨_, _, parent, _, _, rfl⟩ := h
  exact List.append_ne_nil_of_right_ne_nil parent nofun

/-! ## The first that is free -/

theorem firstFree_cases (store : FileStore) (path : Nat → String) (bound i : Nat) :
    store.pathExists (path (firstFree store path bound i)) = false ∨
      firstFree store path bound i = i + bound ∧
        ∀ k < bound, store.pathExists (path (i + k)) = true := by
  induction bound generalizing i with
  | zero => exact .inr ⟨rfl, fun k hk => absurd hk (Nat.not_lt_zero k)⟩
  | succ bound ih =>
      rw [firstFree]
      cases hexists : store.pathExists (path i) with
      | false => exact .inl hexists
      | true =>
          rw [if_pos rfl]
          rcases ih (i + 1) with hfree | ⟨heq, htaken⟩
          · exact .inl hfree
          · refine .inr ⟨heq.trans (by omega), fun k hk => ?_⟩
            cases k with
            | zero => exact hexists
            | succ k =>
                have hnext := htaken k (Nat.lt_of_succ_lt_succ hk)
                rwa [Nat.add_right_comm] at hnext

/-- Something at a place takes an entry. -/
theorem mem_places_of_get? {entry : FileEntry} (h : store.get? place = some entry)
    (hroot : place ≠ []) : place ∈ store.entries.map (·.1) := by
  rw [get?, if_neg hroot] at h
  generalize store.entries = entries at h
  induction entries with
  | nil => cases h
  | cons e rest ih =>
      obtain ⟨p, other⟩ := e
      rw [findEntry] at h
      split at h
      · next hp => exact List.mem_map.mpr ⟨(p, other), List.mem_cons_self, hp⟩
      · rw [List.map_cons]
        exact List.mem_cons_of_mem p (ih h)

/-- Not all candidates are taken: they would take more entries than there are. -/
theorem exists_free_candidate (store : FileStore) (dir installer : String) :
    ∃ i < store.entries.length + 1, store.pathExists (candidate dir installer i) = false := by
  by_contra hnone
  have htaken : ∀ i ∈ List.range (store.entries.length + 1), ∃ place entry,
      store.resolve (candidate dir installer i) = .ok place ∧ store.get? place = some entry := by
    intro i hi
    rw [← pathExists_iff, ← Bool.not_eq_false]
    exact fun hfree => hnone ⟨i, List.mem_range.mp hi, hfree⟩
  -- The places of the candidates are pairwise different, and each is among the entries.
  let taken (i : Nat) : Place := (store.resolve (candidate dir installer i)).toOption.getD []
  have hnodup : ((List.range (store.entries.length + 1)).map taken).Nodup := by
    refine List.Nodup.map_on (fun i hi j hj hsame => ?_) List.nodup_range
    obtain ⟨p, _, hp, _⟩ := htaken i hi
    obtain ⟨q, _, hq, _⟩ := htaken j hj
    have hpq : p = q := by simpa [taken, hp, hq, Except.toOption] using hsame
    exact candidate_place_injective hp (hpq ▸ hq)
  have hsubset : (List.range (store.entries.length + 1)).map taken ⊆
      store.entries.map (·.1) := by
    intro place hplace
    obtain ⟨i, hi, rfl⟩ := List.mem_map.mp hplace
    obtain ⟨p, entry, hp, hentry⟩ := htaken i hi
    have hplace : taken i = p := by simp [taken, hp, Except.toOption]
    rw [hplace]
    exact mem_places_of_get? hentry (candidate_place_ne_root hp)
  have hlength := (List.subperm_of_subset hnodup hsubset).length_le
  simp only [List.length_map, List.length_range] at hlength
  omega

/-- **The next output is new**: nothing is at its path. -/
theorem pathExists_nextOutputPath (store : FileStore) (dir installer : String) :
    store.pathExists (nextOutputPath store dir installer) = false := by
  rw [nextOutputPath]
  rcases firstFree_cases store (candidate dir installer) (store.entries.length + 1) 0 with
    hfree | ⟨_, htaken⟩
  · exact hfree
  · obtain ⟨i, hi, hfree⟩ := exists_free_candidate store dir installer
    have htaken := htaken i hi
    rw [Nat.zero_add, hfree] at htaken
    cases htaken

end InstallerBrowser
