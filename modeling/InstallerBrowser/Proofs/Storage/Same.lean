import InstallerBrowser.Proofs.Storage.Parents

/-!
# InstallerBrowser.Proofs.Storage.Same

Paths that are the same.

Such paths start at the same place (`isAbsolute_eq_of_same`) and hold the same characters, as often
as each other, but for slashes and dots (`countP_eq_of_same`).  A directory with a slash and a name
behind it is the path of the name in the directory (`same_join`).
-/

namespace InstallerBrowser

theorem Text.countP_joinOn {mark : Char} {p : Char → Bool} (h : p mark = false)
    (parts : List (List Char)) : (joinOn mark parts).countP p = parts.flatten.countP p := by
  induction parts with
  | nil => rfl
  | cons part rest ih =>
      cases rest with
      | nil => simp [joinOn]
      | cons next rest =>
          have hjoin : joinOn mark (part :: next :: rest) =
              part ++ mark :: joinOn mark (next :: rest) := rfl
          rw [hjoin, List.countP_append, List.countP_cons_of_neg (by simp [h]), ih,
            ← List.countP_append, ← List.flatten_cons]

namespace Path

open Text

variable {path other : String} {p : Char → Bool}

theorem isAbsolute_eq_components (path : String) : isAbsolute path = (components path).1 := by
  obtain ⟨first, rest, hsplit⟩ := List.exists_cons_of_ne_nil (splitOn_ne_nil '/' path.toList)
  rw [components, hsplit]

theorem isAbsolute_eq_of_same (h : same path other = true) :
    isAbsolute path = isAbsolute other := by
  rw [isAbsolute_eq_components, isAbsolute_eq_components, beq_iff_eq.mp h]

theorem properParts_eq_components (path : String) :
    properParts path = (components path).2.filter fun part => !isSkipped part := by
  obtain ⟨first, rest, hsplit⟩ := List.exists_cons_of_ne_nil (splitOn_ne_nil '/' path.toList)
  rw [properParts, components, hsplit]
  cases first with
  | nil => simp [isSkipped]
  | cons c cs => simp [List.filter_cons]

theorem countP_properParts (hslash : p '/' = false) (hdot : p '.' = false) (path : String) :
    (properParts path).flatten.countP p = path.toList.countP p := by
  have hskipped : ∀ parts : List (List Char),
      (parts.filter fun part => !isSkipped part).flatten.countP p = parts.flatten.countP p := by
    intro parts
    induction parts with
    | nil => rfl
    | cons part parts ih =>
        cases hpart : isSkipped part with
        | false =>
            rw [List.filter_cons_of_pos (by simp [hpart]), List.flatten_cons, List.flatten_cons,
              List.countP_append, List.countP_append, ih]
        | true =>
            have hnone : part.countP p = 0 := by
              rw [isSkipped, Bool.or_eq_true, List.isEmpty_iff, beq_iff_eq] at hpart
              rcases hpart with rfl | rfl
              · rfl
              · simp [hdot]
            rw [List.filter_cons_of_neg (by simp [hpart]), ih, List.flatten_cons,
              List.countP_append, hnone, Nat.zero_add]
  rw [properParts, hskipped, ← countP_joinOn hslash, joinOn_splitOn]

theorem countP_eq_of_same (hslash : p '/' = false) (hdot : p '.' = false)
    (h : same path other = true) : path.toList.countP p = other.toList.countP p := by
  rw [← countP_properParts hslash hdot, ← countP_properParts hslash hdot,
    properParts_eq_components, properParts_eq_components, beq_iff_eq.mp h]

/-- A second slash behind a directory does not count. -/
theorem same_of_slashes (dir cs : List Char) (hpath : path.toList = dir ++ '/' :: '/' :: cs)
    (hother : other.toList = dir ++ '/' :: cs) : same path other = true := by
  obtain ⟨first, rest, hsplit⟩ := List.exists_cons_of_ne_nil (splitOn_ne_nil '/' dir)
  have habs : isAbsolute path = isAbsolute other := by
    rw [isAbsolute, isAbsolute, hpath, hother]
    cases dir <;> rfl
  rw [same, beq_iff_eq, components, components, habs, hpath, hother, splitOn_append_cons,
    splitOn_append_cons, splitOn_cons_self, hsplit]
  simp [isSkipped]

theorem same_join {dir name : String} (hdir : dir ≠ "") (hname : isAbsolute name = false) :
    same (dir ++ "/" ++ name) (join dir name) = true := by
  have hslash : "/".toList = ['/'] := rfl
  rw [join, hname, if_neg Bool.false_ne_true]
  split
  · next h =>
      have hlast := h.resolve_left (by simpa using hdir)
      obtain ⟨front, hfront⟩ := List.getLast?_eq_some_iff.mp hlast
      refine same_of_slashes front name.toList ?_ ?_
      · simp [hfront, hslash]
      · simp [hfront]
  · exact beq_self_eq_true _

end Path

end InstallerBrowser
