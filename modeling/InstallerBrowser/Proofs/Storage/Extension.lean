import InstallerBrowser.Proofs.Storage.Parents

/-!
# InstallerBrowser.Proofs.Storage.Extension

The last name of a path, and what it ends in.

A path whose last part is a proper name has that name (`fileName?_of_splitOn`), and no name holds a
slash, so the name of a name is the name itself (`fileName?_of_fileName?`).  A name is cut at its
last dot if there is something in front of it (`splitDot_eq_some_iff`), and that is the extension.
-/

namespace InstallerBrowser.Path

open FileStore

variable {path name : String} {part last stem ext : List Char} {parts init : List (List Char)}

/-! ## The last name -/

theorem dropSkipped_concat (h : isSkipped last = false) :
    significant.dropSkipped (init ++ [last]) = init ++ [last] := by
  rw [significant.dropSkipped, List.reverse_concat, List.dropWhile_cons_of_neg (by simp [h]),
    ← List.reverse_concat, List.reverse_reverse]

/-- A path without a slash behind its last part counts up to that part. -/
theorem getLast?_significant (h : Text.splitOn '/' path.toList = parts ++ [last])
    (hlast : isSkipped last = false) : (significant path).getLast? = some last := by
  cases habs : isAbsolute path with
  | true =>
      obtain ⟨cs, hcs⟩ := isAbsolute_iff.mp habs
      rw [significant, if_pos habs]
      cases parts with
      | nil =>
          rw [hcs, Text.splitOn_cons_self, List.nil_append, List.cons_eq_cons] at h
          rw [← h.1] at hlast
          cases hlast
      | cons first parts =>
          rw [h, List.cons_append, List.tail_cons, dropSkipped_concat hlast,
            List.getLast?_concat]
  | false =>
      rw [significant, if_neg (by simp [habs]), h]
      cases parts with
      | nil =>
          have hsome : last.isEmpty = false := by
            rw [isSkipped, Bool.or_eq_false_iff] at hlast
            exact hlast.1
          show List.getLast? (if last.isEmpty then [] else [last]) = some last
          rw [if_neg (by simp [hsome])]
          rfl
      | cons first parts =>
          rw [List.cons_append]
          simp only [dropSkipped_concat hlast]
          split
          · next hnil =>
              exact absurd hnil (List.append_ne_nil_of_right_ne_nil _ (List.cons_ne_nil _ _))
          · rw [← List.cons_append, List.getLast?_concat]

theorem fileName?_of_splitOn (h : Text.splitOn '/' path.toList = parts ++ [name.toList])
    (hname : IsProper name) : fileName? path = some name := by
  have hlast : isSkipped name.toList = false :=
    isSkipped_of_isProper (by rwa [String.ofList_toList])
  rw [fileName?, getLast?_significant h hlast]
  have hproper : ¬ (name.toList.isEmpty ∨ name.toList = ['.'] ∨ name.toList = ['.', '.']) := by
    rintro (hempty | hhere | hup)
    · exact hname.ne_empty (String.toList_eq_nil_iff.mp (List.isEmpty_iff.mp hempty))
    · exact hname.ne_here (String.toList_inj.mp hhere)
    · exact hname.ne_up (String.toList_inj.mp hup)
  simp only [if_neg hproper, String.ofList_toList]

/-- A path that ends in more than two characters, none of them a slash, has a last name. -/
theorem exists_fileName?_eq (hpath : path.toList = stem ++ ext) (hslash : '/' ∉ ext)
    (hlength : 2 < ext.length) : ∃ name, fileName? path = some name := by
  obtain ⟨parts, last, hparts⟩ := Text.exists_splitOn_eq '/' stem
  have hsplit : Text.splitOn '/' path.toList =
      parts ++ [(String.ofList (last ++ ext)).toList] := by
    rw [hpath, Text.splitOn_append hparts hslash, String.toList_ofList]
  have hproper : IsProper (String.ofList (last ++ ext)) := by
    refine isProper_of_length ?_
    rw [String.length_ofList, List.length_append]
    omega
  exact ⟨_, fileName?_of_splitOn hsplit hproper⟩

/-- What counts of a path are parts of it. -/
theorem mem_splitOn_of_mem_significant (h : part ∈ significant path) :
    part ∈ Text.splitOn '/' path.toList := by
  rw [significant] at h
  split at h
  · exact List.mem_of_mem_tail (mem_of_mem_dropSkipped h)
  · split at h
    · exact absurd h List.not_mem_nil
    · next first rest hsplit =>
        rw [hsplit]
        split at h
        · split at h
          · exact absurd h List.not_mem_nil
          · exact List.mem_cons.mpr (.inl (List.mem_singleton.mp h))
        · rcases List.mem_cons.mp h with rfl | h
          · exact List.mem_cons_self
          · exact List.mem_cons_of_mem _ (mem_of_mem_dropSkipped h)

theorem isProper_of_fileName? (h : fileName? path = some name) :
    IsProper name ∧ '/' ∉ name.toList := by
  rw [fileName?] at h
  split at h
  · cases h
  · next part hlast =>
      split at h
      · cases h
      · next hproper =>
          cases h
          rw [not_or, not_or] at hproper
          refine ⟨⟨?_, ?_, ?_⟩, ?_⟩
          · exact fun heq => hproper.2.1 (String.ofList_inj.mp heq)
          · exact fun heq => hproper.1 (List.isEmpty_iff.mpr (String.ofList_inj.mp heq))
          · exact fun heq => hproper.2.2 (String.ofList_inj.mp heq)
          · rw [String.toList_ofList]
            exact Text.not_mem_of_mem_splitOn
              (mem_splitOn_of_mem_significant (List.mem_of_getLast? hlast))

/-- The name of a name is the name itself. -/
theorem fileName?_of_fileName? (h : fileName? path = some name) : fileName? name = some name := by
  obtain ⟨hproper, hslash⟩ := isProper_of_fileName? h
  have hsplit : Text.splitOn '/' name.toList = [] ++ [name.toList] :=
    Text.splitOn_of_not_mem hslash
  exact fileName?_of_splitOn hsplit hproper

/-! ## The last dot -/

theorem splitDot_append (hstem : stem ≠ []) (hext : '.' ∉ ext) :
    splitDot (stem ++ '.' :: ext) = (stem, some ext) := by
  have htail : ((stem ++ '.' :: ext).reverse.takeWhile (· != '.')).reverse = ext := by
    rw [List.reverse_append, List.reverse_cons, List.append_assoc,
      List.takeWhile_append_of_pos, List.singleton_append, List.takeWhile_cons_of_neg (by simp),
      List.append_nil, List.reverse_reverse]
    intro c hc
    rw [bne_iff_ne]
    rintro rfl
    exact hext (List.mem_reverse.mp hc)
  have hlength : (stem ++ '.' :: ext).length = stem.length + 1 + ext.length := by
    rw [List.length_append, List.length_cons]
    omega
  have hfront :
      (stem ++ '.' :: ext).take ((stem ++ '.' :: ext).length - ext.length - 1) = stem := by
    have hcount : (stem ++ '.' :: ext).length - ext.length - 1 = stem.length := by omega
    rw [hcount, List.take_left]
  rw [splitDot]
  simp only [htail, hfront]
  rw [if_neg]
  rintro (hall | hempty)
  · omega
  · exact hstem (List.isEmpty_iff.mp hempty)

/-- A name is cut at its last dot, if there is something in front of that. -/
theorem splitDot_eq_some_iff :
    (splitDot part).2 = some ext ↔ ∃ stem, stem ≠ [] ∧ '.' ∉ ext ∧ part = stem ++ '.' :: ext := by
  refine ⟨fun h => ?_, fun ⟨stem, hstem, hext, hpart⟩ => ?_⟩
  · have hcut : part.reverse.takeWhile (· != '.') ++ part.reverse.dropWhile (· != '.') =
        part.reverse := List.takeWhile_append_dropWhile
    rw [splitDot] at h
    split at h
    · cases h
    · next hnot =>
        have htail : (part.reverse.takeWhile (· != '.')).reverse = ext := Option.some.inj h
        rw [htail, not_or, List.isEmpty_iff] at hnot
        have hext : '.' ∉ ext := by
          rw [← htail, List.mem_reverse]
          intro hdot
          have hall := List.all_takeWhile (p := (· != '.')) (l := part.reverse)
          exact absurd (List.all_eq_true.mp hall _ hdot) (by simp)
        cases hdrop : part.reverse.dropWhile (· != '.') with
        | nil =>
            rw [hdrop, List.append_nil] at hcut
            rw [hcut, List.reverse_reverse] at htail
            exact absurd (congrArg List.length htail.symm) hnot.1
        | cons c more =>
            have hhead := List.head?_dropWhile_not (· != '.') part.reverse
            have hc : c = '.' := by simpa [hdrop] using hhead
            have hpart : part = more.reverse ++ '.' :: ext := by
              rw [← List.reverse_reverse part, ← hcut, hdrop, hc, List.reverse_append, htail]
              simp
            refine ⟨more.reverse, fun hnone => hnot.2 ?_, hext, hpart⟩
            rw [hpart, hnone]
            simp
  · rw [hpart, splitDot_append hstem hext]

theorem extension?_eq_some_iff {ext : String} :
    extension? path = some ext ↔ ∃ name stem, fileName? path = some name ∧ stem ≠ [] ∧
      '.' ∉ ext.toList ∧ name.toList = stem ++ '.' :: ext.toList := by
  rw [extension?, Option.bind_eq_some_iff]
  constructor
  · rintro ⟨name, hname, h⟩
    obtain ⟨cs, hcs, rfl⟩ := Option.map_eq_some_iff.mp h
    obtain ⟨stem, hstem, hdot, hcut⟩ := splitDot_eq_some_iff.mp hcs
    rw [String.toList_ofList]
    exact ⟨name, stem, hname, hstem, hdot, hcut⟩
  · rintro ⟨name, stem, hname, hstem, hdot, hcut⟩
    have hcs := splitDot_eq_some_iff.mpr ⟨stem, hstem, hdot, hcut⟩
    exact ⟨name, hname, Option.map_eq_some_iff.mpr ⟨_, hcs, String.ofList_toList⟩⟩

end InstallerBrowser.Path
