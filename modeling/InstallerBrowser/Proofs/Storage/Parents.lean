import InstallerBrowser.Proofs.Storage.Places

/-!
# InstallerBrowser.Proofs.Storage.Parents

The directories that lead to a path.

What counts of a path are its parts that are neither empty nor `.` (`properParts`): two paths with
the same of these lead to the same directories (`follow_filter`), a parent has all of them but the
last (`parent?_eq_some`), and no path leads to a place of more names than it has of these
(`length_resolveNew_le`).
-/

namespace InstallerBrowser

/-! ## Splitting and joining -/

namespace Text

variable {mark c : Char} {cs part : List Char} {parts : List (List Char)}

/-- A mark cuts a text in two. -/
theorem splitOn_append_cons (mark : Char) (cs more : List Char) :
    splitOn mark (cs ++ mark :: more) = splitOn mark cs ++ splitOn mark more := by
  induction cs with
  | nil => exact splitOn_cons_self mark more
  | cons c cs ih =>
      by_cases hc : c = mark
      · subst hc
        rw [List.cons_append, splitOn_cons_self, splitOn_cons_self, ih, List.cons_append]
      · obtain ⟨part, rest, hparts⟩ := List.exists_cons_of_ne_nil (splitOn_ne_nil mark cs)
        rw [hparts, List.cons_append] at ih
        rw [List.cons_append, splitOn_cons_of_ne hc ih, splitOn_cons_of_ne hc hparts,
          List.cons_append]

theorem splitOn_joinOn (hne : parts ≠ []) (h : ∀ part ∈ parts, mark ∉ part) :
    splitOn mark (joinOn mark parts) = parts := by
  induction parts with
  | nil => exact absurd rfl hne
  | cons part rest ih =>
      rw [List.forall_mem_cons] at h
      cases rest with
      | nil => exact splitOn_of_not_mem h.1
      | cons next rest =>
          rw [joinOn, splitOn_append_cons, splitOn_of_not_mem h.1, ih (List.cons_ne_nil _ _) h.2]
          · rfl
          · rintro ⟨⟩

theorem not_mem_of_mem_splitOn (h : part ∈ splitOn mark cs) : mark ∉ part := by
  induction cs generalizing part with
  | nil =>
      rw [splitOn, List.mem_singleton] at h
      rw [h]
      exact List.not_mem_nil
  | cons c cs ih =>
      by_cases hc : c = mark
      · rw [hc, splitOn_cons_self, List.mem_cons] at h
        rcases h with rfl | h
        · exact List.not_mem_nil
        · exact ih h
      · obtain ⟨first, rest, hparts⟩ := List.exists_cons_of_ne_nil (splitOn_ne_nil mark cs)
        rw [hparts] at ih
        rw [splitOn_cons_of_ne hc hparts, List.mem_cons] at h
        rcases h with rfl | h
        · rw [List.mem_cons, not_or]
          exact ⟨Ne.symm hc, ih List.mem_cons_self⟩
        · exact ih (List.mem_cons_of_mem _ h)

theorem mem_splitOn_iff (hc : c ≠ mark) :
    c ∈ cs ↔ ∃ part ∈ splitOn mark cs, c ∈ part := by
  induction cs with
  | nil => simp [splitOn]
  | cons d cs ih =>
      by_cases hd : d = mark
      · subst hd
        rw [splitOn_cons_self, List.mem_cons, ih]
        simp [hc]
      · obtain ⟨first, rest, hparts⟩ := List.exists_cons_of_ne_nil (splitOn_ne_nil mark cs)
        rw [splitOn_cons_of_ne hd hparts, List.mem_cons, ih, hparts]
        simp [or_assoc]

end Text

namespace Path

open Text

variable {path parent : String} {parts : List (List Char)} {part last : List Char}

/-! ## The parts that count -/

/-- The parts of a path that are neither empty nor the directory itself. -/
def properParts (path : String) : List (List Char) :=
  (splitOn '/' path.toList).filter fun part => !isSkipped part

theorem filter_dropWhile_isSkipped (parts : List (List Char)) :
    (parts.dropWhile isSkipped).filter (fun part => !isSkipped part) =
      parts.filter fun part => !isSkipped part := by
  induction parts with
  | nil => rfl
  | cons part parts ih =>
      cases h : isSkipped part with
      | true => rw [List.dropWhile_cons_of_pos h, ih, List.filter_cons_of_neg (by simp [h])]
      | false => rw [List.dropWhile_cons_of_neg (by simp [h])]

theorem filter_dropSkipped (parts : List (List Char)) :
    (significant.dropSkipped parts).filter (fun part => !isSkipped part) =
      parts.filter fun part => !isSkipped part := by
  rw [significant.dropSkipped, List.filter_reverse, filter_dropWhile_isSkipped,
    List.filter_reverse, List.reverse_reverse]

/-- The last part that is left counts. -/
theorem isSkipped_of_dropSkipped {init : List (List Char)}
    (h : significant.dropSkipped parts = init ++ [last]) : isSkipped last = false := by
  have hreverse : parts.reverse.dropWhile isSkipped = last :: init.reverse := by
    rw [← List.reverse_reverse (parts.reverse.dropWhile isSkipped)]
    rw [significant.dropSkipped] at h
    rw [h, List.reverse_append]
    rfl
  have hhead := List.head?_dropWhile_not isSkipped parts.reverse
  rw [hreverse] at hhead
  simpa using hhead

theorem mem_of_mem_dropSkipped (h : part ∈ significant.dropSkipped parts) : part ∈ parts := by
  rw [significant.dropSkipped, List.mem_reverse] at h
  exact List.mem_reverse.mp ((List.dropWhile_sublist _).subset h)

theorem slash_not_mem_dropSkipped (h : ∀ part ∈ parts, '/' ∉ part) :
    ∀ part ∈ significant.dropSkipped parts, '/' ∉ part :=
  fun part hpart => h part (mem_of_mem_dropSkipped hpart)

/-- Parts that are joined are the parts again, as far as they count. -/
theorem filter_splitOn_joinOn (h : ∀ part ∈ parts, '/' ∉ part) :
    (splitOn '/' (joinOn '/' parts)).filter (fun part => !isSkipped part) =
      parts.filter fun part => !isSkipped part := by
  cases parts with
  | nil => rfl
  | cons part parts => rw [splitOn_joinOn (List.cons_ne_nil _ _) h]

theorem isAbsolute_iff : isAbsolute path = true ↔ ∃ cs, path.toList = '/' :: cs := by
  rw [isAbsolute]
  cases path.toList with
  | nil => simp
  | cons c cs => simp

/-- The first part of a relative path with a slash is not empty. -/
theorem exists_first (hpath : isAbsolute path = false) {first : List Char}
    {rest : List (List Char)} (h : splitOn '/' path.toList = first :: rest) (hrest : rest ≠ []) :
    ∃ c cs, c ≠ '/' ∧ first = c :: cs := by
  rw [isAbsolute] at hpath
  cases hcs : path.toList with
  | nil =>
      rw [hcs, splitOn, List.cons_eq_cons] at h
      exact absurd h.2.symm hrest
  | cons c cs =>
      have hc : c ≠ '/' := by simpa [hcs] using hpath
      obtain ⟨part, parts, hparts⟩ := List.exists_cons_of_ne_nil (splitOn_ne_nil '/' cs)
      rw [hcs, splitOn_cons_of_ne hc hparts, List.cons_eq_cons] at h
      exact ⟨c, part, hc, h.1.symm⟩

theorem properParts_of_isAbsolute {cs : List Char} (h : path.toList = '/' :: cs) :
    properParts path = (splitOn '/' cs).filter fun part => !isSkipped part := by
  rw [properParts, h, splitOn_cons_self]
  rfl

theorem parent?_of_isAbsolute (habs : isAbsolute path = true) {init : List (List Char)}
    (h : significant path = init ++ [last]) :
    parent? path = some (String.ofList ('/' :: joinOn '/' (significant.dropSkipped init))) := by
  have hdrop : (init ++ [last]).dropLast = init := List.dropLast_concat
  rw [parent?, h]
  cases init with
  | nil => simp [habs]
  | cons first init =>
      rw [List.cons_append] at hdrop ⊢
      simp only [habs, if_true, hdrop]

theorem parent?_of_relative (habs : isAbsolute path = false) {first : List Char}
    {init : List (List Char)} (h : significant path = first :: init ++ [last]) :
    parent? path =
      some (String.ofList (joinOn '/' (first :: significant.dropSkipped init))) := by
  have hdrop : (first :: init ++ [last]).dropLast = first :: init := List.dropLast_concat
  rw [List.cons_append] at h hdrop
  rw [parent?, h]
  simp only [habs, hdrop]
  rfl

theorem properParts_parent_of_isAbsolute {cs : List Char} (hcs : path.toList = '/' :: cs)
    (h : parent? path = some parent) : isAbsolute parent = true ∧
      ∃ last, properParts path = properParts parent ++ [last] := by
  have habs : isAbsolute path = true := isAbsolute_iff.mpr ⟨cs, hcs⟩
  have hsig : significant path = significant.dropSkipped (splitOn '/' cs) := by
    rw [significant, habs, if_pos rfl, hcs, splitOn_cons_self]
    rfl
  rcases List.eq_nil_or_concat (significant.dropSkipped (splitOn '/' cs)) with
    hnil | ⟨init, last, hparts⟩
  · rw [parent?, hsig, hnil] at h
    cases h
  · rw [List.concat_eq_append] at hparts
    rw [parent?_of_isAbsolute habs (hsig.trans hparts), Option.some.injEq] at h
    have hparent : parent.toList = '/' :: joinOn '/' (significant.dropSkipped init) := by
      rw [← h, String.toList_ofList]
    have hslash : ∀ part ∈ significant.dropSkipped init, '/' ∉ part := by
      refine slash_not_mem_dropSkipped fun part hpart => ?_
      have hall := slash_not_mem_dropSkipped fun part (hpart : part ∈ splitOn '/' cs) =>
        not_mem_of_mem_splitOn hpart
      exact hall part (hparts ▸ List.mem_append_left _ hpart)
    refine ⟨isAbsolute_iff.mpr ⟨_, hparent⟩, last, ?_⟩
    rw [properParts_of_isAbsolute hcs, properParts_of_isAbsolute hparent,
      filter_splitOn_joinOn hslash, filter_dropSkipped, ← filter_dropSkipped, hparts,
      List.filter_append]
    congr 1
    simp [isSkipped_of_dropSkipped hparts]

theorem properParts_parent_of_relative (habs : isAbsolute path = false)
    (h : parent? path = some parent) : parent = "" ∨ isAbsolute parent = false ∧
      ∃ last, properParts path = properParts parent ++ [last] := by
  obtain ⟨first, rest, hsplit⟩ := List.exists_cons_of_ne_nil (splitOn_ne_nil '/' path.toList)
  rcases List.eq_nil_or_concat (significant.dropSkipped rest) with hnil | ⟨init, last, hparts⟩
  · have hsig : significant path = if first.isEmpty then [] else [first] := by
      rw [significant, habs, if_neg Bool.false_ne_true, hsplit]
      simp only [hnil]
    rw [parent?, hsig, habs] at h
    cases hfirst : first.isEmpty with
    | true =>
        rw [hfirst] at h
        cases h
    | false =>
        rw [hfirst] at h
        cases h
        exact .inl rfl
  · rw [List.concat_eq_append] at hparts
    have hsig : significant path = first :: init ++ [last] := by
      rw [significant, habs, if_neg Bool.false_ne_true, hsplit]
      simp only [hparts]
      cases init <;> rfl
    rw [parent?_of_relative habs hsig, Option.some.injEq] at h
    have hrest : rest ≠ [] := by
      rintro rfl
      cases init <;> cases hparts
    obtain ⟨c, cs, hc, rfl⟩ := exists_first habs hsplit hrest
    have hall : ∀ part ∈ (c :: cs) :: rest, '/' ∉ part := fun part hpart =>
      not_mem_of_mem_splitOn (hsplit ▸ hpart)
    rw [List.forall_mem_cons] at hall
    have hslash : ∀ part ∈ (c :: cs) :: significant.dropSkipped init, '/' ∉ part := by
      refine List.forall_mem_cons.mpr ⟨hall.1, slash_not_mem_dropSkipped fun part hpart => ?_⟩
      exact slash_not_mem_dropSkipped hall.2 part (hparts ▸ List.mem_append_left _ hpart)
    have hparent : parent.toList = joinOn '/' ((c :: cs) :: significant.dropSkipped init) := by
      rw [← h, String.toList_ofList]
    refine .inr ⟨?_, last, ?_⟩
    · rw [isAbsolute, hparent, joinOn_cons_cons]
      simpa using hc
    · rw [properParts, hsplit, properParts, hparent, filter_splitOn_joinOn hslash,
        List.filter_cons, List.filter_cons, filter_dropSkipped, ← filter_dropSkipped rest, hparts,
        List.filter_append]
      have hlast : [last].filter (fun part => !isSkipped part) = [last] := by
        simp [isSkipped_of_dropSkipped hparts]
      rw [hlast]
      split
      · rfl
      · rfl

/-- A parent starts where its path does, and has all of its parts that count but the last. -/
theorem parent?_eq_some (h : parent? path = some parent) :
    parent = "" ∨ isAbsolute parent = isAbsolute path ∧
      ∃ last, properParts path = properParts parent ++ [last] := by
  cases habs : isAbsolute path with
  | true =>
      obtain ⟨cs, hcs⟩ := isAbsolute_iff.mp habs
      exact .inr (properParts_parent_of_isAbsolute hcs h)
  | false => exact properParts_parent_of_relative habs h

end Path

namespace FileStore

open InstallerBrowser.Path

variable {store a b c : FileStore} {place target : Place} {path parent : String}
  {parts : List (List Char)} {part : List Char}

/-! ## Following the parts that count -/

theorem nextPlace_of_isSkipped (h : isSkipped part = true) :
    nextPlace place (String.ofList part) = some place := by
  rw [nextPlace, if_pos]
  rw [isSkipped, Bool.or_eq_true, List.isEmpty_iff, beq_iff_eq] at h
  rcases h with rfl | rfl
  · exact .inr rfl
  · exact .inl rfl

/-- What leads to a directory starts at one. -/
theorem dir_of_follow {names : List String} (h : store.follow place names = .ok target)
    (htarget : store.get? target = some .dir) : store.get? place = some .dir := by
  cases names with
  | nil =>
      cases h
      exact htarget
  | cons name names => exact (follow_cons_eq_ok.mp h).1

/-- From one directory to another, only the parts that count lead on. -/
theorem follow_filter (hplace : store.get? place = some .dir)
    (htarget : store.get? target = some .dir) :
    store.follow place (parts.map String.ofList) = .ok target ↔
      store.follow place ((parts.filter fun part => !isSkipped part).map String.ofList) =
        .ok target := by
  induction parts generalizing place with
  | nil => rfl
  | cons part parts ih =>
      cases hpart : isSkipped part with
      | true =>
          rw [List.filter_cons_of_neg (by simp [hpart]), List.map_cons, follow_cons_eq_ok,
            nextPlace_of_isSkipped hpart, ← ih hplace]
          constructor
          · rintro ⟨_, next, hnext, hrest⟩
            cases hnext
            exact hrest
          · exact fun hrest => ⟨hplace, place, rfl, hrest⟩
      | false =>
          rw [List.filter_cons_of_pos (by simp [hpart]), List.map_cons, List.map_cons,
            follow_cons_eq_ok, follow_cons_eq_ok]
          constructor
          · rintro ⟨hdir, next, hnext, hrest⟩
            exact ⟨hdir, next, hnext, (ih (dir_of_follow hrest htarget)).mp hrest⟩
          · rintro ⟨hdir, next, hnext, hrest⟩
            exact ⟨hdir, next, hnext, (ih (dir_of_follow hrest htarget)).mpr hrest⟩

/-! ## The path of a new entry -/

theorem toList_withoutSlash (path : String) :
    ∃ k, path.toList = (withoutSlash path).toList ++ List.replicate k '/' := by
  refine ⟨(path.toList.reverse.takeWhile (· == '/')).length, ?_⟩
  have hslashes : path.toList.reverse.takeWhile (· == '/') =
      List.replicate (path.toList.reverse.takeWhile (· == '/')).length '/' := by
    refine List.eq_replicate_iff.mpr ⟨rfl, fun c hc => ?_⟩
    simpa using List.all_eq_true.mp List.all_takeWhile c hc
  rw [withoutSlash, String.toList_ofList, ← List.reverse_replicate, ← hslashes,
    ← List.reverse_append, List.takeWhile_append_dropWhile, List.reverse_reverse]

/-- Slashes at the end add no part that counts. -/
theorem filter_splitOn_slashes (cs : List Char) (k : Nat) :
    (Text.splitOn '/' (cs ++ List.replicate k '/')).filter (fun part => !isSkipped part) =
      (Text.splitOn '/' cs).filter fun part => !isSkipped part := by
  induction k with
  | zero => rw [List.replicate_zero, List.append_nil]
  | succ k ih =>
      have hempty : (Text.splitOn '/' []).filter (fun part => !isSkipped part) = [] := rfl
      rw [List.replicate_succ', ← List.append_assoc, Text.splitOn_append_cons, List.filter_append,
        ih, hempty, List.append_nil]

theorem properParts_withoutSlash (path : String) :
    properParts (withoutSlash path) = properParts path := by
  obtain ⟨k, hk⟩ := toList_withoutSlash path
  rw [properParts, properParts, hk, filter_splitOn_slashes]

theorem isAbsolute_withoutSlash (h : withoutSlash path ≠ "") :
    isAbsolute (withoutSlash path) = isAbsolute path := by
  obtain ⟨k, hk⟩ := toList_withoutSlash path
  rw [isAbsolute, isAbsolute, hk]
  cases hcs : (withoutSlash path).toList with
  | nil => exact absurd (String.toList_eq_nil_iff.mp hcs) h
  | cons c cs => rfl

/-- A path of slashes leads to the root. -/
theorem isAbsolute_of_withoutSlash (hpath : path ≠ "") (h : withoutSlash path = "") :
    isAbsolute path = true := by
  obtain ⟨k, hk⟩ := toList_withoutSlash path
  rw [h] at hk
  cases k with
  | zero => exact absurd (String.toList_eq_nil_iff.mp hk) hpath
  | succ k => exact isAbsolute_iff.mpr ⟨List.replicate k '/', hk⟩

/-- A path that leads to a directory by its parts that count makes a new entry there. -/
theorem resolveNew_eq_ok (hpath : path ≠ "") (hnul : Char.ofNat 0 ∉ path.toList)
    (h : store.follow (store.startOf path) ((properParts path).map String.ofList) = .ok target)
    (htarget : store.get? target = some .dir) : store.resolveNew path = .ok target := by
  rw [resolveNew]
  cases hasks : asksForDir path with
  | false =>
      rw [if_neg Bool.false_ne_true, resolve_eq hpath hnul]
      exact (follow_filter (dir_of_follow h htarget) htarget).mpr h
  | true =>
      rw [if_pos rfl]
      by_cases hroot : withoutSlash path = ""
      · have hparts : properParts path = [] := by
          rw [← properParts_withoutSlash, hroot]
          rfl
        rw [hparts, startOf, if_pos (isAbsolute_of_withoutSlash hpath hroot)] at h
        cases h
        rw [if_pos hroot]
      · have hnul' : Char.ofNat 0 ∉ (withoutSlash path).toList := by
          obtain ⟨k, hk⟩ := toList_withoutSlash path
          rw [hk, List.mem_append, not_or] at hnul
          exact hnul.1
        have hstart : store.startOf (withoutSlash path) = store.startOf path := by
          rw [startOf, startOf, isAbsolute_withoutSlash hroot]
        rw [if_neg hroot, resolve_eq hroot hnul', hstart]
        refine (follow_filter (dir_of_follow h htarget) htarget).mpr ?_
        rw [← properParts_withoutSlash] at h
        exact h

/-! ## Parents -/

/-- A parent holds no character that its path does not hold, but slashes and dots. -/
theorem not_mem_parent {c : Char} (hslash : c ≠ '/') (hdot : c ≠ '.') (hc : c ∉ path.toList)
    {last : List Char} (h : properParts path = properParts parent ++ [last]) :
    c ∉ parent.toList := by
  intro hmem
  obtain ⟨part, hpart, hin⟩ := (Text.mem_splitOn_iff hslash).mp hmem
  have hkept : isSkipped part = false := by
    rw [← Bool.not_eq_true, isSkipped, Bool.or_eq_true, List.isEmpty_iff, beq_iff_eq]
    rintro (rfl | rfl)
    · exact absurd hin List.not_mem_nil
    · exact hdot (List.mem_singleton.mp hin)
  have hproper : part ∈ properParts parent := List.mem_filter.mpr ⟨hpart, by simp [hkept]⟩
  have hpath : part ∈ properParts path := h ▸ List.mem_append_left _ hproper
  exact hc ((Text.mem_splitOn_iff hslash).mpr ⟨part, (List.mem_filter.mp hpath).1, hin⟩)

theorem isSkipped_of_isProper (h : IsProper (String.ofList part)) : isSkipped part = false := by
  rw [← Bool.not_eq_true, isSkipped, Bool.or_eq_true, List.isEmpty_iff, beq_iff_eq]
  rintro (rfl | rfl)
  · exact h.ne_empty rfl
  · exact h.ne_here rfl

theorem isProper_of_not_isSkipped (h : isSkipped part = false) (hup : ".." ≠ String.ofList part) :
    IsProper (String.ofList part) where
  ne_here heq := by
    have hpart : part = ['.'] := String.ofList_inj.mp heq
    rw [hpart] at h
    cases h
  ne_empty heq := by
    have hpart : part = [] := String.ofList_inj.mp heq
    rw [hpart] at h
    cases h
  ne_up := Ne.symm hup

/-- The parts that count in front of the last name of a path. -/
theorem exists_parts {names : List String} {name : String}
    (hnames : pathNames path = names ++ [name]) (hname : IsProper name) :
    ∃ parts, Text.splitOn '/' path.toList = parts ++ [name.toList] ∧
      names = parts.map String.ofList ∧
        properParts path = (parts.filter fun part => !isSkipped part) ++ [name.toList] := by
  obtain ⟨parts, last, hsplit⟩ := Text.exists_splitOn_eq '/' path.toList
  rw [pathNames, hsplit, List.map_append] at hnames
  obtain ⟨hparts, hlast⟩ := List.append_inj' hnames rfl
  cases hlast
  rw [String.toList_ofList]
  refine ⟨parts, hsplit, hparts.symm, ?_⟩
  rw [properParts, hsplit, List.filter_append, List.filter_cons_of_pos]
  · rfl
  · simp [isSkipped_of_isProper hname]

/-! ## How far a path leads -/

/-- The most names that a place can have to which a path leads. -/
def reach (store : FileStore) (path : String) : Nat :=
  (store.startOf path).length + (properParts path).length

theorem length_nextPlace_le {name : String} {next : Place} (h : nextPlace place name = some next) :
    next.length ≤ place.length + 1 := by
  rw [nextPlace] at h
  split at h
  · cases h
    exact Nat.le_succ _
  · split at h
    · cases h
    · split at h
      · cases h
        rw [List.length_dropLast]
        omega
      · cases h
        exact Nat.le_of_eq List.length_append

theorem length_follow_le (h : store.follow place (parts.map String.ofList) = .ok target) :
    target.length ≤ place.length + (parts.filter fun part => !isSkipped part).length := by
  induction parts generalizing place with
  | nil =>
      cases h
      exact Nat.le_add_right _ _
  | cons part parts ih =>
      rw [List.map_cons] at h
      obtain ⟨_, next, hnext, hrest⟩ := follow_cons_eq_ok.mp h
      have hlength := ih hrest
      cases hpart : isSkipped part with
      | true =>
          rw [nextPlace_of_isSkipped hpart] at hnext
          cases hnext
          rwa [List.filter_cons_of_neg (by simp [hpart])]
      | false =>
          have hstep := length_nextPlace_le hnext
          rw [List.filter_cons_of_pos (by simp [hpart]), List.length_cons]
          omega

theorem length_resolve_le (h : store.resolve path = .ok target) :
    target.length ≤ store.reach path := by
  obtain ⟨hpath, hnul⟩ := resolve_ok_ne h
  rw [resolve_eq hpath hnul] at h
  exact length_follow_le h

theorem length_resolveNew_le (h : store.resolveNew path = .ok target) :
    target.length ≤ store.reach path := by
  rw [resolveNew] at h
  split at h
  · split at h
    · cases h
      exact Nat.zero_le _
    · next hroot =>
        have hreach : store.reach (withoutSlash path) = store.reach path := by
          rw [reach, reach, startOf, startOf, isAbsolute_withoutSlash hroot,
            properParts_withoutSlash]
        rw [← hreach]
        exact length_resolve_le h
  · exact length_resolve_le h

theorem reach_parent_lt (h : parent? path = some parent) (hne : parent ≠ "") :
    store.reach parent < store.reach path := by
  obtain ⟨habs, last, hlast⟩ := (parent?_eq_some h).resolve_left hne
  rw [reach, reach, hlast, startOf, startOf, habs, List.length_append, List.length_singleton]
  exact Nat.lt_succ_self _

end FileStore

end InstallerBrowser
