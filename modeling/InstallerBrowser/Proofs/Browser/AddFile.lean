import InstallerBrowser.Browser.Run
import InstallerBrowser.Proofs.Dialog.LineEdit
import InstallerBrowser.Proofs.Storage.Same
import InstallerBrowser.Proofs.Text.Blank
import InstallerBrowser.Proofs.Text.Words

/-!
# InstallerBrowser.Proofs.Browser.AddFile

Completing the directory that the dialog for a file starts with.

The dialog starts with the directory of the selected file and a slash.  If a name is typed behind
that, the files in this line are added (`run_addFile`).  A line is split into words, so that this is
the path of the name in the directory only for a `Completable` directory: one without blanks in
front, without gaps, quotes and backslashes, and that is no comment and does not stand for the home
directory.  Where a quote is left open the line is taken as it is, so such a directory can be
completed too (`completed_iff`).
-/

namespace InstallerBrowser

/-- A letter, a digit, a point, an underscore or a dash. -/
def isNameChar (c : Char) : Bool := c.isAlphanum || c == '.' || c == '_' || c == '-'

/-- A name of some characters, among which are no slashes, blanks, quotes or backslashes. -/
structure IsPlainName (name : String) : Prop where
  ne_empty : name ≠ ""
  plain : ∀ c ∈ name.toList, c ≠ '/' ∧ Text.isBlank c = false ∧ Text.isMark c = false

namespace IsPlainName

variable {name : String}

/-- Names of letters, digits, points, underscores and dashes are such. -/
theorem of_all (hne : name ≠ "") (h : name.toList.all isNameChar = true) : IsPlainName name where
  ne_empty := hne
  plain c hc := by
    have hchar := List.all_eq_true.mp h c hc
    simp only [isNameChar, Bool.or_eq_true, beq_iff_eq] at hchar
    rcases hchar with ((hc | rfl) | rfl) | rfl
    · refine ⟨?_, Text.isBlank_of_isAlphanum hc, Text.isMark_of_isAlphanum hc⟩
      rintro rfl
      cases hc
    · decide
    · decide
    · decide

theorem no_mark (h : IsPlainName name) : ∀ c ∈ name.toList, Text.isMark c = false :=
  fun c hc => (h.plain c hc).2.2

theorem isAbsolute_eq (h : IsPlainName name) : Path.isAbsolute name = false := by
  rw [← Bool.not_eq_true, Path.isAbsolute_iff]
  rintro ⟨cs, hcs⟩
  exact (h.plain '/' (hcs ▸ List.mem_cons_self)).1 rfl

end IsPlainName

/-! ## The home directory -/

namespace Browser

variable {home path : String}

/-- A path that stands for the home directory, or for one inside of it. -/
def IsBelowHome (path : String) : Prop := path = "~" ∨ ['~', '/'] <+: path.toList

theorem expandHome_of_not (h : ¬ IsBelowHome path) : expandHome home path = path := by
  rw [IsBelowHome, not_or] at h
  rw [expandHome]
  split
  · next hpath => exact absurd (String.toList_inj.mp hpath) h.1
  · next rest hpath => exact absurd ⟨rest, hpath.symm⟩ h.2
  · rfl

theorem isAbsolute_join {name : String} (hhome : Path.isAbsolute home = true) :
    Path.isAbsolute (Path.join home name) = true := by
  obtain ⟨cs, hcs⟩ := Path.isAbsolute_iff.mp hhome
  rw [Path.join]
  split
  · assumption
  · split
    · exact Path.isAbsolute_iff.mpr ⟨cs ++ name.toList, by simp [hcs]⟩
    · exact Path.isAbsolute_iff.mpr ⟨cs ++ ("/" ++ name).toList, by simp [hcs]⟩

theorem isAbsolute_expandHome (hhome : Path.isAbsolute home = true) (h : IsBelowHome path) :
    Path.isAbsolute (expandHome home path) = true := by
  rcases h with rfl | ⟨rest, hpath⟩
  · exact hhome
  · rw [expandHome, ← hpath]
    exact isAbsolute_join hhome

theorem isAbsolute_of_isBelowHome (h : IsBelowHome path) : Path.isAbsolute path = false := by
  rcases h with rfl | ⟨rest, hpath⟩
  · rfl
  · rw [Path.isAbsolute, ← hpath]
    rfl

/-! ## The line -/

/-- A directory that is completed by a name behind its text. -/
structure Completable (dir : String) : Prop where
  /-- It does not start with a blank. -/
  front : ∀ c ∈ dir.toList.head?, Text.isBlank c = false
  /-- It does not stand for the home directory. -/
  home : ¬ ['~', '/'] <+: (dir ++ "/").toList
  /-- It leaves a quote open, or it holds no gap, quote or backslash and starts no comment. -/
  words : Text.splitWords (dir ++ "/") = none ∨
    (∀ c ∈ dir.toList, Text.isMark c = false) ∧ dir.toList.head? ≠ some '#'

section Line

variable {dir name : String}

theorem toList_line (dir name : String) :
    (dir ++ "/" ++ name).toList = dir.toList ++ '/' :: name.toList := by
  rw [String.toList_append, String.toList_append, List.append_assoc]
  rfl

theorem head?_line (hdir : dir ≠ "") (name : String) :
    (dir ++ "/" ++ name).toList.head? = dir.toList.head? := by
  obtain ⟨c, cs, hcs⟩ := List.exists_cons_of_ne_nil (show dir.toList ≠ [] by simpa using hdir)
  rw [toList_line, hcs]
  rfl

theorem slash_mem_line (dir name : String) : '/' ∈ (dir ++ "/" ++ name).toList := by
  simp

theorem line_ne_empty (dir name : String) : dir ++ "/" ++ name ≠ "" := by
  intro h
  have hslash := slash_mem_line dir name
  rw [h] at hslash
  cases hslash

theorem tilde_prefix_line (dir name : String) :
    ['~', '/'] <+: (dir ++ "/" ++ name).toList ↔ ['~', '/'] <+: (dir ++ "/").toList := by
  rw [toList_line, String.toList_append]
  rcases dir.toList with _ | ⟨c, _ | ⟨d, rest⟩⟩ <;> simp

theorem isBelowHome_line (dir name : String) :
    IsBelowHome (dir ++ "/" ++ name) ↔ ['~', '/'] <+: (dir ++ "/").toList := by
  have hne : dir ++ "/" ++ name ≠ "~" := by
    intro h
    have hslash := slash_mem_line dir name
    rw [h] at hslash
    exact absurd hslash (by decide)
  rw [IsBelowHome, or_iff_right hne, tilde_prefix_line]

theorem no_mark_line (hdir : ∀ c ∈ dir.toList, Text.isMark c = false) (hname : IsPlainName name) :
    ∀ c ∈ (dir ++ "/" ++ name).toList, Text.isMark c = false := by
  intro c hc
  rw [toList_line, List.mem_append, List.mem_cons] at hc
  rcases hc with hc | rfl | hc
  · exact hdir c hc
  · decide
  · exact hname.no_mark c hc

/-- Only blanks in front of the directory are lost. -/
theorem toList_trim_line (hname : IsPlainName name) :
    (Text.trim (dir ++ "/" ++ name)).toList = Text.dropBlank (dir ++ "/" ++ name).toList := by
  refine Text.toList_trim_of_getLast? fun c hc => ?_
  have hne : name.toList ≠ [] := by simpa using hname.ne_empty
  rw [toList_line, List.append_cons, List.getLast?_append_of_ne_nil _ hne] at hc
  exact (hname.plain c (List.mem_of_getLast? hc)).2.1

theorem trim_line (hdir : dir ≠ "") (hname : IsPlainName name)
    (hfront : ∀ c ∈ dir.toList.head?, Text.isBlank c = false) :
    Text.trim (dir ++ "/" ++ name) = dir ++ "/" ++ name := by
  rw [← String.toList_inj, toList_trim_line hname]
  refine Text.dropBlank_eq_self ?_
  rwa [head?_line hdir]

/-- A directory that can be completed is completed to the path of the name. -/
theorem pathsOfLine_of_completable (hdir : dir ≠ "") (hname : IsPlainName name)
    (h : Completable dir) : pathsOfLine home (dir ++ "/" ++ name) = [dir ++ "/" ++ name] := by
  have hexpand : expandHome home (dir ++ "/" ++ name) = dir ++ "/" ++ name :=
    expandHome_of_not ((isBelowHome_line dir name).not.mpr h.home)
  have hwords : (Text.splitWords (dir ++ "/" ++ name)).getD [dir ++ "/" ++ name] =
      [dir ++ "/" ++ name] := by
    rcases h.words with hopen | ⟨hmarks, hcomment⟩
    · rw [(Text.splitWords_slash_eq_none_iff hname.no_mark).mpr hopen, Option.getD_none]
    · have hhead : (dir ++ "/" ++ name).toList.head? ≠ some '#' := by rwa [head?_line hdir]
      rw [Text.splitWords_of_no_mark (line_ne_empty dir name) (no_mark_line hmarks hname) hhead,
        Option.getD_some]
  rw [pathsOfLine, trim_line hdir hname h.front]
  simp only [String.isEmpty_iff, line_ne_empty, if_false, hwords, List.map_singleton, hexpand]

/-- The word that is the only path of a line, before a tilde is read. -/
theorem exists_word {line : String} (h : pathsOfLine home line = [path]) :
    ∃ word, path = expandHome home word ∧
      (Text.splitWords (Text.trim line) = some [word] ∨
        Text.splitWords (Text.trim line) = none ∧ word = Text.trim line) := by
  rw [pathsOfLine] at h
  split at h
  · cases h
  · obtain ⟨word, hword, rfl⟩ := List.map_eq_singleton_iff.mp h
    refine ⟨word, rfl, ?_⟩
    cases hwords : Text.splitWords (Text.trim line) with
    | none =>
        rw [hwords, Option.getD_none] at hword
        exact .inr ⟨rfl, (List.singleton_inj.mp hword).symm⟩
    | some words =>
        rw [hwords, Option.getD_some] at hword
        exact .inl (congrArg some hword)

variable {word : String}

/-- Characters without marks in front of a line stand in front of its word. -/
theorem prefix_of_word {line : String} {front cs : List Char}
    (hword : Text.splitWords line = some [word] ∨ Text.splitWords line = none ∧ word = line)
    (hline : line.toList = front ++ cs) (hne : front ≠ [])
    (hmarks : ∀ c ∈ front, Text.isMark c = false) (hcomment : front.head? ≠ some '#') :
    front <+: word.toList := by
  rcases hword with hsplit | ⟨-, rfl⟩
  · obtain ⟨first, rest, hwords, hfront⟩ :=
      Text.exists_cons_of_front hsplit hline hne hmarks hcomment
    cases hwords
    exact hfront
  · exact ⟨cs, hline.symm⟩

/-- The word of a line holds characters of the line, in their order. -/
theorem sublist_of_word {line : String}
    (hword : Text.splitWords line = some [word] ∨ Text.splitWords line = none ∧ word = line) :
    word.toList.Sublist line.toList := by
  rcases hword with hsplit | ⟨-, rfl⟩
  · exact Text.toList_sublist_of_splitWords hsplit
  · exact List.Sublist.refl _

/-- If the only path of a line is that of the line, no tilde was read. -/
theorem expandHome_of_same (hhome : Path.isAbsolute home = true) (hname : IsPlainName name)
    (hword : Text.splitWords (Text.trim (dir ++ "/" ++ name)) = some [word] ∨
      Text.splitWords (Text.trim (dir ++ "/" ++ name)) = none ∧
        word = Text.trim (dir ++ "/" ++ name))
    (hsame : Path.same (expandHome home word) (dir ++ "/" ++ name) = true) :
    ¬ IsBelowHome word := by
  intro hbelow
  have habs := isAbsolute_expandHome hhome hbelow
  rw [Path.isAbsolute_eq_of_same hsame, Path.isAbsolute_iff] at habs
  obtain ⟨cs, hcs⟩ := habs
  have htrim : (Text.trim (dir ++ "/" ++ name)).toList = ['/'] ++ cs := by
    rw [toList_trim_line hname, hcs]
    exact Text.dropBlank_eq_self fun c hc => by cases hc; decide
  have hprefix := prefix_of_word hword htrim (List.cons_ne_nil _ _)
    (List.forall_mem_singleton.mpr rfl) (by decide)
  have hword : Path.isAbsolute word = true := by
    obtain ⟨rest, hrest⟩ := hprefix
    exact Path.isAbsolute_iff.mpr ⟨rest, hrest.symm⟩
  rw [isAbsolute_of_isBelowHome hbelow] at hword
  cases hword

/-- A directory that is completed to the path of a name can be completed. -/
theorem completable_of_pathsOfLine (hhome : Path.isAbsolute home = true) (hdir : dir ≠ "")
    (hname : IsPlainName name) (hpaths : pathsOfLine home (dir ++ "/" ++ name) = [path])
    (hsame : Path.same path (dir ++ "/" ++ name) = true) : Completable dir := by
  obtain ⟨word, rfl, hword⟩ := exists_word hpaths
  have hbelow := expandHome_of_same hhome hname hword hsame
  rw [expandHome_of_not hbelow] at hsame
  have hfront : ∀ c ∈ dir.toList.head?, Text.isBlank c = false := by
    intro c hc
    rw [← Bool.not_eq_true]
    intro hblank
    rw [← head?_line hdir name] at hc
    obtain ⟨cs, hcs⟩ := List.head?_eq_some_iff.mp hc
    have hcount := Path.countP_eq_of_same (p := Text.isBlank) (by decide) (by decide) hsame
    have hle := (sublist_of_word hword).countP_le (p := Text.isBlank)
    have hlt := Text.countP_dropBlank_lt cs hblank
    rw [toList_trim_line hname] at hle
    rw [← hcs] at hlt
    omega
  rw [trim_line hdir hname hfront] at hword
  refine ⟨hfront, fun htilde => hbelow (.inr ?_), ?_⟩
  · obtain ⟨cs, hcs⟩ := (tilde_prefix_line dir name).mpr htilde
    exact prefix_of_word hword hcs.symm (List.cons_ne_nil _ _)
      (List.forall_mem_cons.mpr ⟨rfl, List.forall_mem_singleton.mpr rfl⟩) (by decide)
  · by_cases hopen : Text.splitWords (dir ++ "/") = none
    · exact .inl hopen
    · have hsplit : Text.splitWords (dir ++ "/" ++ name) = some [word] :=
        hword.resolve_right fun hnone =>
          hopen ((Text.splitWords_slash_eq_none_iff hname.no_mark).mp hnone.1)
      have hmarks : ∀ c ∈ dir.toList, Text.isMark c = false := by
        intro c hc
        rw [← Bool.not_eq_true]
        intro hmark
        have hcount := Path.countP_eq_of_same (p := Text.isMark) (by decide) (by decide) hsame
        have hmem : c ∈ (dir ++ "/" ++ name).toList := by
          rw [toList_line]
          exact List.mem_append_left _ hc
        have hlt := Text.countP_isMark_lt hsplit ⟨c, hmem, hmark⟩
        omega
      refine .inr ⟨hmarks, fun hcomment => ?_⟩
      rw [← head?_line hdir name] at hcomment
      cases hsplit.symm.trans (Text.splitWords_comment (no_mark_line hmarks hname) hcomment)

end Line

/-! ## The dialog -/

/-- Events by which a text is typed: keys, and texts that are pasted. -/
inductive Types : List Event → List Char → Prop
  | done : Types [] []
  | key {c : Char} {events : List Event} {cs : List Char} (h : Types events cs) :
      Types (.key { code := .char c } :: events) (c :: cs)
  | paste (text : String) {events : List Event} {cs : List Char} (h : Types events cs) :
      Types (.paste text :: events) (text.toList ++ cs)

/-- The key that confirms a dialog. -/
def enter : Event := .key { code := .enter }

variable {b : Browser} {events : List Event} {cs : List Char}

/-- The dialog for a file, with a text in its line and the cursor behind it. -/
def fileDialog (text : List Char) : Dialog :=
  .input "Add Installer" "Installer path:" (Halves.line ⟨text, []⟩) .ok

theorem edit_fileDialog (text : List Char) (op : LineEdit.Operation) {rest : List Char}
    (h : Halves.step ⟨text, []⟩ op = ⟨rest, []⟩) :
    (b.openDialog (fileDialog text)).edit (fileDialog text) op = b.openDialog (fileDialog rest) := by
  have hstep := Halves.step?_line ⟨text, []⟩ op
  rw [h] at hstep
  simp only [edit, fileDialog, hstep]
  rfl

/-- What is typed stands behind the text of the line. -/
theorem run_types (h : Types events cs) (hcs : ∀ c ∈ cs, Text.isBlank c = false)
    (text : List Char) :
    (b.openDialog (fileDialog text)).run events = b.openDialog (fileDialog (text ++ cs)) := by
  induction h generalizing text with
  | done => rw [List.append_nil]; rfl
  | @key c events cs h ih =>
      rw [List.forall_mem_cons] at hcs
      have hstep : (b.openDialog (fileDialog text)).step (.key { code := .char c }) =
          b.openDialog (fileDialog (text ++ [c])) := edit_fileDialog text (.insert c) rfl
      rw [run, List.foldl_cons, hstep, ← run, ih hcs.2, List.append_assoc]
      rfl
  | @paste pasted events cs h ih =>
      rw [List.forall_mem_append] at hcs
      have hkept : ∀ c ∈ pasted.toList, Halves.pasted c = c := by
        intro c hc
        refine if_neg ?_
        rintro (rfl | rfl)
        · exact absurd (hcs.1 _ hc) (by decide)
        · exact absurd (hcs.1 _ hc) (by decide)
      have hpasted : pasted.toList.map Halves.pasted = pasted.toList :=
        (List.map_congr_left hkept).trans (List.map_id _)
      have hstep : (b.openDialog (fileDialog text)).step (.paste pasted) =
          b.openDialog (fileDialog (text ++ pasted.toList)) :=
        edit_fileDialog text (.paste pasted) (by rw [Halves.step, hpasted])
      rw [run, List.foldl_cons, hstep, ← run, ih hcs.2, List.append_assoc]

theorem askForFile_eq {file : QueuedFile} {dir : String}
    (hfree : b.session.state.isLocked = false) (hfile : b.queue.selectedFile = some file)
    (hdir : Path.parent? file.path = some dir) (hne : dir ≠ "") :
    b.askForFile = b.openDialog (fileDialog (dir ++ "/").toList) := by
  have hselected : b.selectedDir = dir ++ "/" := by
    rw [selectedDir, hfile, Option.bind_some, hdir]
    simp [String.isEmpty_iff, hne]
  rw [askForFile, hfree, if_neg Bool.false_ne_true, hselected, Dialog.addFile, fileDialog,
    Halves.line_ofText]

theorem addLine_eq (dir name : String) :
    b.addLine (dir ++ "/" ++ name) = b.addFiles (pathsOfLine b.home (dir ++ "/" ++ name)) := by
  have hblank : ¬ Text.isBlankText (dir ++ "/" ++ name) = true := fun h =>
    absurd (List.all_eq_true.mp h '/' (slash_mem_line dir name)) (by decide)
  rw [addLine, if_neg hblank]

/-- Typing a name behind the directory and confirming adds what the line names. -/
theorem run_addFile {file : QueuedFile} {dir name : String}
    (hfree : b.session.state.isLocked = false) (hfile : b.queue.selectedFile = some file)
    (hdir : Path.parent? file.path = some dir) (hne : dir ≠ "") (hname : IsPlainName name)
    (hevents : Types events name.toList) :
    b.run (.action .addFile :: events ++ [enter]) =
      b.closeDialog.addFiles (pathsOfLine b.home (dir ++ "/" ++ name)) := by
  have hblank : ∀ c ∈ name.toList, Text.isBlank c = false := fun c hc => (hname.plain c hc).2.1
  have htext : String.ofList ((dir ++ "/").toList ++ name.toList ++ []) = dir ++ "/" ++ name := by
    simp [String.append_assoc]
  have hask : b.step (.action .addFile) = b.openDialog (fileDialog (dir ++ "/").toList) :=
    askForFile_eq hfree hfile hdir hne
  have hconfirm : (b.openDialog (fileDialog ((dir ++ "/").toList ++ name.toList))).step
      enter = b.closeDialog.addLine (dir ++ "/" ++ name) :=
    congrArg b.closeDialog.addLine htext
  have htyped := run_types (b := b) hevents hblank (dir ++ "/").toList
  rw [run] at htyped ⊢
  rw [List.cons_append, List.foldl_cons, List.foldl_append, hask, htyped, List.foldl_cons,
    List.foldl_nil, hconfirm, addLine_eq]
  rfl

/-- **Completing a directory**: if a name is typed behind the directory that the dialog starts with,
what is added are the paths in this line.  They are the one path of the name in the directory for a
directory that can be completed, and for no other. -/
theorem addFile_completes {b : Browser} {file : QueuedFile} {dir name : String}
    {events : List Event} (hfree : b.session.state.isLocked = false)
    (hfile : b.queue.selectedFile = some file) (hdir : Path.parent? file.path = some dir)
    (hne : dir ≠ "") (hname : IsPlainName name) (hevents : Types events name.toList) :
    b.run (.action .addFile :: events ++ [enter]) =
        b.closeDialog.addFiles (pathsOfLine b.home (dir ++ "/" ++ name)) ∧
      (Completable dir → ∃ path, pathsOfLine b.home (dir ++ "/" ++ name) = [path] ∧
        Path.same path (Path.join dir name) = true) ∧
      (Path.isAbsolute b.home = true → ∀ path, pathsOfLine b.home (dir ++ "/" ++ name) = [path] →
        Path.same path (Path.join dir name) = true → Completable dir) := by
  have hjoin := Path.same_join hne hname.isAbsolute_eq
  refine ⟨run_addFile hfree hfile hdir hne hname hevents, fun h => ?_,
    fun hhome path hpaths hsame => ?_⟩
  · exact ⟨_, pathsOfLine_of_completable hne hname h, hjoin⟩
  · have hline : Path.same path (dir ++ "/" ++ name) = true := by
      rw [Path.same, beq_iff_eq] at hsame hjoin ⊢
      rw [hsame, hjoin]
    exact completable_of_pathsOfLine hhome hne hname hpaths hline

/-- A file system with two installers in a directory. -/
def filesIn (dir : String) : FileStore :=
  let store := (FileStore.empty ["work"]).put ["work", dir] .dir
  (store.put ["work", dir, "setup.exe"] (.file "")).put ["work", dir, "a.exe"] (.file "")

/-- A browser with the first of them in its queue. -/
def withSetup (dir : String) : Browser :=
  (new {} { home := "/home" } "out" (filesIn dir)).run [.addFiles [dir ++ "/setup.exe"]]

/-- A quote that is left open takes the blank along: the name is completed. -/
theorem addFile_completes_openQuote :
    let b := withSetup "Bob's files"
    let c := b.run [.action .addFile, .key { code := .char 'a' }, .paste ".exe", enter]
    b.session.state.isLocked = false ∧
      b.queue.selectedFile = some { path := "Bob's files/setup.exe", size := 0 } ∧
      Path.parent? "Bob's files/setup.exe" = some "Bob's files" ∧ Completable "Bob's files" ∧
      c.queue.files.map (·.path) = ["Bob's files/setup.exe", "Bob's files/a.exe"] ∧
      c = b.closeDialog.addFiles (pathsOfLine b.home ("Bob's files" ++ "/" ++ "a.exe")) ∧
      ∃ path, pathsOfLine b.home ("Bob's files" ++ "/" ++ "a.exe") = [path] ∧
        Path.same path (Path.join "Bob's files" "a.exe") = true := by
  intro b c
  have hfree : b.session.state.isLocked = false := by decide +kernel
  have hfile : b.queue.selectedFile = some { path := "Bob's files/setup.exe", size := 0 } := by
    decide +kernel
  have hdir : Path.parent? "Bob's files/setup.exe" = some "Bob's files" := by decide +kernel
  have hname : IsPlainName "a.exe" := .of_all (by decide) (by decide)
  have hpaths : pathsOfLine b.home ("Bob's files" ++ "/" ++ "a.exe") = ["Bob's files/a.exe"] := by
    decide +kernel
  obtain ⟨hrun, hone, hall⟩ := addFile_completes hfree hfile hdir (by decide) hname
    (.key (.paste ".exe" .done))
  have hcompletable := hall (by decide +kernel) "Bob's files/a.exe" hpaths (by decide +kernel)
  exact ⟨hfree, hfile, hdir, hcompletable, by decide +kernel, hrun, hone hcompletable⟩

/-- A directory with a blank in its name is not completed: what is looked for are two other files,
and the file that is named is not added although it is there. -/
theorem not_completes_gap :
    let b := withSetup "My files"
    let c := b.run [.action .addFile, .paste "a.exe", enter]
    b.session.state.isLocked = false ∧
      b.queue.selectedFile = some { path := "My files/setup.exe", size := 0 } ∧
      Path.parent? "My files/setup.exe" = some "My files" ∧ IsPlainName "a.exe" ∧
      c = b.closeDialog.addFiles ["My", "files/a.exe"] ∧
      c ≠ b.closeDialog.addFiles [Path.join "My files" "a.exe"] := by
  intro b c
  have hfree : b.session.state.isLocked = false := by decide +kernel
  have hfile : b.queue.selectedFile = some { path := "My files/setup.exe", size := 0 } := by
    decide +kernel
  have hdir : Path.parent? "My files/setup.exe" = some "My files" := by decide +kernel
  have hname : IsPlainName "a.exe" := .of_all (by decide) (by decide)
  have hpaths : pathsOfLine b.home ("My files" ++ "/" ++ "a.exe") = ["My", "files/a.exe"] := by
    decide +kernel
  have hevents : Types [.paste "a.exe"] "a.exe".toList := .paste "a.exe" .done
  have hrun := run_addFile hfree hfile hdir (by decide) hname hevents
  rw [hpaths] at hrun
  have hqueue : c.queue.files.length = 1 := by decide +kernel
  have hadded : (b.closeDialog.addFiles [Path.join "My files" "a.exe"]).queue.files.length = 2 := by
    decide +kernel
  refine ⟨hfree, hfile, hdir, hname, hrun, fun heq => ?_⟩
  rw [heq, hadded] at hqueue
  exact absurd hqueue (by decide)

end Browser

end InstallerBrowser
