import InstallerBrowser.Storage.Output

/-!
# InstallerBrowser.Proofs.Storage.Places

Where paths lead.

A path leads to a place name by name, and all that counts on the way is which places are
directories: a store that keeps the directories of another leads every path to the same place
(`KeepsDirs.resolve`).  A path whose last name neither stays nor climbs leads to that name in the
directory of the names before it (`resolve_eq_ok`).
-/

namespace InstallerBrowser

/-! ## Names -/

namespace Text

variable {mark c : Char} {cs part last suffix : List Char} {parts rest : List (List Char)}

theorem splitOn_of_not_mem (h : mark ∉ cs) : splitOn mark cs = [cs] := by
  induction cs with
  | nil => rfl
  | cons c cs ih =>
      rw [List.mem_cons, not_or] at h
      rw [splitOn, if_neg (Ne.symm h.1), ih h.2]

theorem splitOn_cons_self (mark : Char) (cs : List Char) :
    splitOn mark (mark :: cs) = [] :: splitOn mark cs := if_pos rfl

theorem splitOn_cons_of_ne (hc : c ≠ mark) (h : splitOn mark cs = part :: rest) :
    splitOn mark (c :: cs) = (c :: part) :: rest := by
  rw [splitOn, if_neg hc, h]

/-- What goes on behind a text without a mark goes on behind its last part. -/
theorem splitOn_append (h : splitOn mark cs = parts ++ [last]) (hsuffix : mark ∉ suffix) :
    splitOn mark (cs ++ suffix) = parts ++ [last ++ suffix] := by
  induction cs generalizing parts last with
  | nil =>
      have hone : [] ++ [[]] = parts ++ [last] := h
      obtain ⟨rfl, hlast⟩ := List.append_inj' hone rfl
      cases hlast
      exact splitOn_of_not_mem hsuffix
  | cons c cs ih =>
      by_cases hc : c = mark
      · subst hc
        rw [splitOn_cons_self] at h
        rw [List.cons_append, splitOn_cons_self]
        cases parts with
        | nil => exact absurd (List.tail_eq_of_cons_eq h) (splitOn_ne_nil c cs)
        | cons part parts =>
            rw [List.cons_append, List.cons_eq_cons] at h
            rw [ih h.2, ← h.1, List.cons_append]
      · obtain ⟨part, rest, hparts⟩ := List.exists_cons_of_ne_nil (splitOn_ne_nil mark cs)
        rw [splitOn_cons_of_ne hc hparts] at h
        rw [List.cons_append]
        cases parts with
        | nil =>
            rw [List.nil_append, List.cons_eq_cons] at h
            obtain ⟨rfl, rfl⟩ := h
            have hone : splitOn mark cs = [] ++ [part] := hparts
            exact splitOn_cons_of_ne hc (ih hone)
        | cons first parts =>
            rw [List.cons_append, List.cons_eq_cons] at h
            obtain ⟨rfl, rfl⟩ := h
            have hmore : splitOn mark cs = (part :: parts) ++ [last] := hparts
            exact splitOn_cons_of_ne hc (ih hmore)

/-- The last part of a text, behind all others. -/
theorem exists_splitOn_eq (mark : Char) (cs : List Char) :
    ∃ parts last, splitOn mark cs = parts ++ [last] :=
  ⟨_, _, (List.dropLast_concat_getLast (splitOn_ne_nil mark cs)).symm⟩

end Text

namespace FileStore

variable {store a b : FileStore} {place target dir : Place} {names more : List String}
  {name path suffix : String}

/-- The names that a path lists. -/
def pathNames (path : String) : List String := (Text.splitOn '/' path.toList).map String.ofList

/-- The place where a path starts. -/
def startOf (store : FileStore) (path : String) : Place :=
  if Path.isAbsolute path then [] else store.workingDir

/-- A path with a name on it, and without a character that no name may hold, is followed. -/
theorem resolve_eq (hpath : path ≠ "") (hnul : Char.ofNat 0 ∉ path.toList) :
    store.resolve path = store.follow (store.startOf path) (pathNames path) := by
  rw [resolve, if_neg hpath, if_neg (by rwa [List.contains_iff_mem])]
  rfl

theorem resolve_ok_ne (h : store.resolve path = .ok place) :
    path ≠ "" ∧ Char.ofNat 0 ∉ path.toList := by
  rw [resolve] at h
  split at h
  · cases h
  · next hpath =>
      split at h
      · cases h
      · next hnul => exact ⟨hpath, by rwa [List.contains_iff_mem] at hnul⟩

/-! ## Following names -/

/-- Where a name leads from a directory, unless it is too long. -/
def nextPlace (place : Place) (name : String) : Option Place :=
  if name = "." ∨ name = "" then some place
  else if name.utf8ByteSize > maxName then none
  else if name = ".." then some place.dropLast
  else some (place ++ [name])

/-- Only a directory leads on. -/
theorem follow_cons_eq_ok :
    store.follow place (name :: names) = .ok target ↔
      store.get? place = some .dir ∧
        ∃ next, nextPlace place name = some next ∧ store.follow next names = .ok target := by
  rw [follow, nextPlace]
  by_cases hskip : name = "." ∨ name = ""
  · rw [if_pos hskip, if_pos hskip]
    cases store.get? place with
    | none => simp
    | some entry => cases entry <;> simp
  · rw [if_neg hskip, if_neg hskip]
    cases store.get? place with
    | none => simp
    | some entry =>
        cases entry with
        | file content => simp
        | dir =>
            by_cases hlong : name.utf8ByteSize > maxName
            · simp [hlong]
            · rw [if_neg hlong, if_neg hlong]
              by_cases hup : name = ".." <;> simp [hup]

theorem follow_append_eq_ok :
    store.follow place (names ++ more) = .ok target ↔
      ∃ next, store.follow place names = .ok next ∧ store.follow next more = .ok target := by
  induction names generalizing place with
  | nil => simp [follow]
  | cons name names ih =>
      simp only [List.cons_append, follow_cons_eq_ok, ih]
      constructor
      · rintro ⟨hdir, next, hnext, last, hlast, hmore⟩
        exact ⟨last, ⟨hdir, next, hnext, hlast⟩, hmore⟩
      · rintro ⟨last, ⟨hdir, next, hnext, hlast⟩, hmore⟩
        exact ⟨hdir, next, hnext, last, hlast, hmore⟩

/-! ## Stores with the same directories -/

/-- A store starts where another does, and keeps its directories. -/
structure KeepsDirs (a b : FileStore) : Prop where
  workingDir : b.workingDir = a.workingDir
  dir : ∀ place, a.get? place = some .dir → b.get? place = some .dir

theorem KeepsDirs.follow (h : KeepsDirs a b) (hfollow : a.follow place names = .ok target) :
    b.follow place names = .ok target := by
  induction names generalizing place with
  | nil => exact hfollow
  | cons name names ih =>
      obtain ⟨hdir, next, hnext, hrest⟩ := follow_cons_eq_ok.mp hfollow
      exact follow_cons_eq_ok.mpr ⟨h.dir place hdir, next, hnext, ih hrest⟩

/-- Where a path leads, it leads with more directories, too. -/
theorem KeepsDirs.resolve (h : KeepsDirs a b) (hresolve : a.resolve path = .ok place) :
    b.resolve path = .ok place := by
  obtain ⟨hpath, hnul⟩ := resolve_ok_ne hresolve
  rw [resolve_eq hpath hnul] at hresolve ⊢
  rw [startOf, h.workingDir]
  exact h.follow hresolve

/-! ## The last name of a path -/

/-- A name that leads below a directory, and neither nowhere else nor up. -/
structure IsProper (name : String) : Prop where
  ne_here : name ≠ "."
  ne_empty : name ≠ ""
  ne_up : name ≠ ".."

theorem isProper_of_length (h : 2 < name.length) : IsProper name where
  ne_here := by rintro rfl; revert h; decide
  ne_empty := by rintro rfl; revert h; decide
  ne_up := by rintro rfl; revert h; decide

/-- What is put behind a path is put behind its last name. -/
theorem exists_pathNames_append (path : String) : ∃ names last, ∀ suffix : String,
    '/' ∉ suffix.toList → pathNames (path ++ suffix) = names ++ [last ++ suffix] := by
  obtain ⟨parts, last, hparts⟩ := Text.exists_splitOn_eq '/' path.toList
  refine ⟨parts.map String.ofList, String.ofList last, fun suffix hsuffix => ?_⟩
  rw [pathNames, String.toList_append, Text.splitOn_append hparts hsuffix, List.map_append]
  simp

theorem isAbsolute_append (hsuffix : '/' ∉ suffix.toList) :
    Path.isAbsolute (path ++ suffix) = Path.isAbsolute path := by
  rw [Path.isAbsolute, Path.isAbsolute, String.toList_append]
  cases path.toList with
  | cons c cs => rfl
  | nil =>
      cases h : suffix.toList with
      | nil => rfl
      | cons c cs =>
          rw [h, List.mem_cons, not_or] at hsuffix
          simp [Ne.symm hsuffix.1]

theorem nextPlace_of_isProper (h : IsProper name) :
    nextPlace place name = some target ↔
      name.utf8ByteSize ≤ maxName ∧ target = place ++ [name] := by
  rw [nextPlace, if_neg (not_or.mpr ⟨h.ne_here, h.ne_empty⟩), if_neg h.ne_up]
  by_cases hlong : name.utf8ByteSize > maxName
  · simp [hlong, Nat.not_le_of_gt hlong]
  · simp [hlong, Nat.le_of_not_gt hlong, eq_comm]

/-- A path leads to its last name in a directory. -/
theorem resolve_eq_ok (hnames : pathNames path = names ++ [name]) (hname : IsProper name) :
    store.resolve path = .ok target ↔
      (path ≠ "" ∧ Char.ofNat 0 ∉ path.toList) ∧ name.utf8ByteSize ≤ maxName ∧
        ∃ dir, store.follow (store.startOf path) names = .ok dir ∧
          store.get? dir = some .dir ∧ target = dir ++ [name] := by
  constructor
  · intro h
    obtain ⟨hpath, hnul⟩ := resolve_ok_ne h
    rw [resolve_eq hpath hnul, hnames, follow_append_eq_ok] at h
    obtain ⟨dir, hdirs, hlast⟩ := h
    obtain ⟨hdir, next, hnext, htarget⟩ := follow_cons_eq_ok.mp hlast
    obtain ⟨hshort, rfl⟩ := (nextPlace_of_isProper hname).mp hnext
    cases htarget
    exact ⟨⟨hpath, hnul⟩, hshort, dir, hdirs, hdir, rfl⟩
  · rintro ⟨⟨hpath, hnul⟩, hshort, dir, hdirs, hdir, rfl⟩
    rw [resolve_eq hpath hnul, hnames, follow_append_eq_ok]
    exact ⟨dir, hdirs, follow_cons_eq_ok.mpr
      ⟨hdir, _, (nextPlace_of_isProper hname).mpr ⟨hshort, rfl⟩, rfl⟩⟩

/-! ## What is at a path -/

theorem pathExists_iff :
    store.pathExists path = true ↔
      ∃ place entry, store.resolve path = .ok place ∧ store.get? place = some entry := by
  rw [pathExists, lookup]
  cases hresolve : store.resolve path with
  | error e => simp [bind, Except.bind, Except.isOk, Except.toBool]
  | ok place =>
      cases hplace : store.get? place with
      | none => simp [bind, Except.bind, hplace, Except.isOk, Except.toBool]
      | some entry => simp [bind, Except.bind, hplace, Except.isOk, Except.toBool]

theorem pathExists_eq_false_iff :
    store.pathExists path = false ↔
      ∀ place, store.resolve path = .ok place → store.get? place = none := by
  rw [← Bool.not_eq_true, pathExists_iff]
  constructor
  · intro h place hplace
    cases hentry : store.get? place with
    | none => rfl
    | some entry => exact absurd ⟨place, entry, hplace, hentry⟩ h
  · rintro h ⟨place, entry, hplace, hentry⟩
    exact absurd ((h place hplace).symm.trans hentry) nofun

theorem isDir_eq_false_iff :
    store.isDir path = false ↔
      ∀ place, store.resolve path = .ok place → store.get? place ≠ some .dir := by
  rw [isDir, lookup]
  cases hresolve : store.resolve path with
  | error e => simp [bind, Except.bind]
  | ok place =>
      cases hplace : store.get? place with
      | none => simp [bind, Except.bind, hplace]
      | some entry => cases entry <;> simp [bind, Except.bind, hplace]

theorem read_eq_ok_iff {content : String} :
    store.read path = .ok content ↔
      ∃ place, store.resolve path = .ok place ∧ store.get? place = some (.file content) := by
  rw [read, lookup]
  cases hresolve : store.resolve path with
  | error e => simp [bind, Except.bind]
  | ok place =>
      cases hplace : store.get? place with
      | none => simp [bind, Except.bind, hplace]
      | some entry => cases entry <;> simp [bind, Except.bind, hplace]

theorem findEntry_filter_self (place : Place) (entries : List (Place × FileEntry)) :
    findEntry place (entries.filter fun e => e.1 != place) = none := by
  induction entries with
  | nil => rfl
  | cons e rest ih =>
      obtain ⟨p, entry⟩ := e
      by_cases hp : p = place
      · simp [hp, ih]
      · simp [hp, ih, findEntry]

theorem get?_erase_self (store : FileStore) (h : place ≠ []) :
    (store.erase place).get? place = none := by
  rw [get?, if_neg h, erase, findEntry_filter_self]

end FileStore

end InstallerBrowser
