import InstallerBrowser.Screen.Paragraph
import Mathlib.Data.List.Basic

/-!
# InstallerBrowser.Proofs.Screen.Wrapping

What breaking a line between words does to its letters.

A glyph is put behind the line that is being filled, or the line is ended before it (`step_of`).
So the rows hold the letters of all glyphs that fit into a row (`letters_wrapLine`).  A row ends
because a word does not fit behind it, so all of the rows together are short of full by one word
each at most, and there are no more of them than that allows (`length_wrapLine_le`).
-/

namespace InstallerBrowser

/-! ## Letters -/

namespace Glyph

variable {g : Glyph} {gs xs ys : List Glyph} {left n : Nat}

@[simp] theorem totalWidth_nil : totalWidth [] = 0 := rfl

@[simp] theorem totalWidth_cons (g : Glyph) (gs : List Glyph) :
    totalWidth (g :: gs) = g.width + totalWidth gs := rfl

@[simp] theorem totalWidth_append (xs ys : List Glyph) :
    totalWidth (xs ++ ys) = totalWidth xs + totalWidth ys := by
  induction xs with
  | nil => simp
  | cons x xs ih => simp [ih, Nat.add_assoc]

/-- The columns of the longest word. -/
def longestWord : List Glyph → Nat
  | [] => 0
  | g :: gs => max (totalWidth ((g :: gs).takeWhile fun g => !g.isBreak)) (longestWord gs)

theorem totalWidth_le_longestWord (h : xs <:+: gs) (hxs : ∀ g ∈ xs, g.isBreak = false) :
    totalWidth xs ≤ longestWord gs := by
  induction gs with
  | nil => simp [List.infix_nil.mp h]
  | cons g gs ih =>
      rcases List.infix_cons_iff.mp h with ⟨ys, hys⟩ | hrest
      · refine Nat.le_trans ?_ (Nat.le_max_left _ _)
        rw [← hys, List.takeWhile_append_of_pos (by simpa using hxs), totalWidth_append]
        exact Nat.le_add_right _ _
      · exact Nat.le_trans (ih hrest) (Nat.le_max_right _ _)

/-- Whether a glyph is part of a word and takes a column. -/
def isLetter (g : Glyph) : Bool := !g.isBreak && 0 < g.width

/-- The letters of some glyphs in their order. -/
def letters (gs : List Glyph) : List String := (gs.filter isLetter).map (·.symbol)

@[simp] theorem letters_nil : letters [] = [] := rfl

@[simp] theorem letters_append (xs ys : List Glyph) :
    letters (xs ++ ys) = letters xs ++ letters ys := by
  simp [letters]

theorem letters_flatten (gss : List (List Glyph)) : letters gss.flatten = gss.flatMap letters := by
  induction gss with
  | nil => rfl
  | cons gs gss ih => rw [List.flatten_cons, letters_append, ih, List.flatMap_cons]

theorem letters_flatMap {α : Type} (xs : List α) (f : α → List Glyph) :
    letters (xs.flatMap f) = xs.flatMap fun x => letters (f x) := by
  rw [List.flatMap_def, letters_flatten, List.flatMap_map]

theorem totalWidth_le_of_sublist (h : xs.Sublist ys) : totalWidth xs ≤ totalWidth ys := by
  induction h with
  | slnil => exact Nat.le_refl _
  | cons g _ ih => exact Nat.le_trans ih (Nat.le_add_left _ _)
  | cons_cons g _ ih => exact Nat.add_le_add_left ih _

theorem dropLast_sublist (h : xs.Sublist ys) : xs.dropLast.Sublist ys.dropLast := by
  rw [← List.reverse_sublist, ← List.tail_reverse, ← List.tail_reverse]
  exact h.reverse.tail

theorem letters_of_breaks (h : ∀ g ∈ gs, g.isBreak = true) : letters gs = [] := by
  rw [letters, List.map_eq_nil_iff, List.filter_eq_nil_iff]
  intro g hg hletter
  simp [isLetter, h g hg] at hletter

theorem letters_sublist (h : xs.Sublist ys) :
    (letters xs).Sublist (letters ys) :=
  (h.filter isLetter).map _

/-- Glyphs that are left out are no letters if all letters are kept. -/
theorem letters_filter_eq_iff (gs : List Glyph) (q : Glyph → Bool) :
    letters (gs.filter q) = letters gs ↔
      ∀ g ∈ gs, g.isLetter = true → q g = true := by
  have hfilter : (gs.filter q).filter isLetter = (gs.filter isLetter).filter q := by
    rw [List.filter_filter, List.filter_filter]
    exact congrArg (List.filter · gs) (funext fun g => Bool.and_comm _ _)
  rw [letters, letters, hfilter]
  refine ⟨fun h => ?_, fun h => ?_⟩
  · have hlength := congrArg List.length h
    rw [List.length_map, List.length_map] at hlength
    have hself := List.filter_sublist.eq_of_length hlength
    exact fun g hg hletter =>
      List.filter_eq_self.mp hself g (List.mem_filter.mpr ⟨hg, hletter⟩)
  · rw [List.filter_eq_self.mpr fun g hg => ?_]
    exact h g (List.mem_filter.mp hg).1 (List.mem_filter.mp hg).2

end Glyph

/-! ## Steps -/

namespace Wrapping

open Glyph

variable {w : Wrapping} {g : Glyph} {gs taken : List Glyph} {limit longest : Nat} {trim : Bool}

/-- A state before a glyph is taken: a word that is due is in the line. -/
def ready (w : Wrapping) (limit : Nat) (trim : Bool) (g : Glyph) : Wrapping :=
  if w.isDue limit trim g then w.settle trim else w

theorem step_eq (w : Wrapping) (trim : Bool) (h : g.width ≤ limit) : step limit trim w g =
    if (w.ready limit trim g).isFull limit g then
      if g.isBreak && ((w.ready limit trim g).breakLine limit).blanks.isEmpty then
        (w.ready limit trim g).breakLine limit
      else ((w.ready limit trim g).breakLine limit).push g
    else (w.ready limit trim g).push g := by
  rw [step, if_neg (Nat.not_lt.mpr h)]
  rfl

/-- What taking a glyph can do. -/
theorem step_of {P : Wrapping → Prop} (w : Wrapping) (g : Glyph)
    (wide : limit < g.width → P w)
    (kept : g.width ≤ limit → (w.ready limit trim g).isFull limit g = false →
      P ((w.ready limit trim g).push g))
    (broken : g.width ≤ limit → (w.ready limit trim g).isFull limit g = true →
      P (((w.ready limit trim g).breakLine limit).push g))
    (dropped : g.width ≤ limit → (w.ready limit trim g).isFull limit g = true →
      g.isBreak = true → P ((w.ready limit trim g).breakLine limit)) :
    P (step limit trim w g) := by
  by_cases hfits : g.width ≤ limit
  · rw [step_eq w trim hfits]
    split
    · next hfull =>
        split
        · next hblank => exact dropped hfits hfull (Bool.and_eq_true_iff.mp hblank).1
        · exact broken hfits hfull
    · next hfull => exact kept hfits ((Bool.not_eq_true _).mp hfull)
  · rw [step, if_pos (Nat.lt_of_not_le hfits)]
    exact wide (Nat.lt_of_not_le hfits)

theorem exists_dropBlanks (free : Nat) (blanks : List Glyph) : ∃ dropped,
    blanks = dropped ++ dropBlanks free blanks ∧ totalWidth dropped ≤ free ∧
      ∀ g ∈ (dropBlanks free blanks).head?, free < totalWidth dropped + g.width := by
  induction blanks generalizing free with
  | nil => exact ⟨[], rfl, Nat.zero_le _, fun g hg => absurd hg (Option.not_mem_none g)⟩
  | cons g rest ih =>
      rw [dropBlanks]
      split
      · next h => exact ⟨[], rfl, Nat.zero_le _, by simpa using h⟩
      · next h =>
          obtain ⟨dropped, hsplit, hle, hnext⟩ := ih (free - g.width)
          refine ⟨g :: dropped, congrArg (g :: ·) hsplit, ?_, fun g' hg' => ?_⟩
          · rw [totalWidth_cons]
            omega
          · have := hnext g' hg'
            rw [totalWidth_cons]
            omega

theorem blanks_breakLine (w : Wrapping) (limit : Nat) :
    (w.breakLine limit).blanks.Sublist w.blanks := by
  obtain ⟨dropped, hsplit, -⟩ := exists_dropBlanks (limit - totalWidth w.line) w.blanks
  exact (congrArg _ hsplit).mpr (List.sublist_append_right dropped _)

/-- The rows of a state are those that are finished and what they leave, on one row with
`trim`. -/
theorem exists_lines_eq (w : Wrapping) (trim : Bool) : ∃ rest,
    w.lines trim = w.finished.reverse ++ rest ∧ rest.flatten = (w.settle trim).line ∧
      (∀ row ∈ rest, row = [] ∨ row = (w.settle trim).line) ∧
      (trim = true → rest.length ≤ 1) := by
  rw [lines]
  by_cases honly : (w.line.isEmpty && w.word.isEmpty && !w.blanks.isEmpty) = true
  · rw [if_pos honly]
    by_cases hlast : (w.settle trim).line = []
    · exact ⟨[[]], by simp [hlast], by simp [hlast], by simp, by simp⟩
    · refine ⟨[[], (w.settle trim).line], by simp [hlast], by simp, by simp, fun htrim => ?_⟩
      simp only [Bool.and_eq_true, List.isEmpty_iff] at honly
      simp [settle, htrim, honly] at hlast
  · rw [if_neg honly]
    by_cases hlast : (w.settle trim).line = []
    · by_cases hfinished : w.finished = []
      · exact ⟨[[]], by simp [hlast, hfinished], by simp [hlast], by simp, by simp⟩
      · exact ⟨[], by simp [hlast, hfinished], by simp [hlast], nofun, by simp⟩
    · exact ⟨[(w.settle trim).line], by simp [hlast], by simp, by simp, by simp⟩

/-! ## No letter is lost -/

/-- The glyphs of a state in their order, without the blanks that may still be dropped. -/
def content (w : Wrapping) : List Glyph := w.finished.reverse.flatten ++ w.line ++ w.word

/-- Whether a state holds the letters of the glyphs that were taken. -/
structure Keeps (taken : List Glyph) (w : Wrapping) : Prop where
  blanks : ∀ g ∈ w.blanks, g.isBreak = true
  content : letters w.content = letters taken

theorem letters_settle (h : letters w.blanks = []) (trim : Bool) :
    letters (w.settle trim).line = letters (w.line ++ w.word) := by
  rw [settle]
  split
  · simp
  · simp [h]

theorem Keeps.settle (h : w.Keeps taken) (trim : Bool) : (w.settle trim).Keeps taken where
  blanks := List.forall_mem_nil _
  content := by
    have hline := letters_settle (letters_of_breaks h.blanks) trim
    rw [letters_append] at hline
    rw [← h.content, Wrapping.content, Wrapping.content, letters_append, letters_append, hline]
    simp [Wrapping.settle]

theorem Keeps.ready (h : w.Keeps taken) (limit : Nat) (trim : Bool) (g : Glyph) :
    (w.ready limit trim g).Keeps taken := by
  rw [Wrapping.ready]
  split
  · exact h.settle trim
  · exact h

theorem Keeps.breakLine (h : w.Keeps taken) (limit : Nat) : (w.breakLine limit).Keeps taken where
  blanks g hg := h.blanks g ((w.blanks_breakLine limit).subset hg)
  content := by
    rw [← h.content]
    simp [Wrapping.content, Wrapping.breakLine]

theorem Keeps.push (h : w.Keeps taken) (g : Glyph) : (w.push g).Keeps (taken ++ [g]) := by
  rw [Wrapping.push]
  split
  · next hbreak =>
      refine ⟨fun g' hg' => ?_, ?_⟩
      · rcases List.mem_append.mp hg' with hg' | hg'
        · exact h.blanks g' hg'
        · rwa [List.mem_singleton.mp hg']
      · have hnone : letters [g] = [] := letters_of_breaks (by simpa using hbreak)
        rw [letters_append, hnone, List.append_nil, ← h.content]
        rfl
  · refine ⟨h.blanks, ?_⟩
    rw [letters_append, ← h.content, ← letters_append]
    simp [Wrapping.content]

theorem Keeps.step (h : w.Keeps taken) (limit : Nat) (trim : Bool) (g : Glyph) :
    (Wrapping.step limit trim w g).Keeps (taken ++ [g].filter fun g => g.width ≤ limit) := by
  apply step_of
  case wide =>
    intro hwide
    rwa [List.filter_cons_of_neg (by simpa using hwide), List.filter_nil, List.append_nil]
  case kept =>
    intro hfits _
    rw [List.filter_cons_of_pos (by simpa using hfits)]
    exact (h.ready limit trim g).push g
  case broken =>
    intro hfits _
    rw [List.filter_cons_of_pos (by simpa using hfits)]
    exact ((h.ready limit trim g).breakLine limit).push g
  case dropped =>
    intro _ _ hbreak
    have hbroken := (h.ready limit trim g).breakLine limit
    have hnone : letters ([g].filter fun g => g.width ≤ limit) = [] :=
      letters_of_breaks fun g' hg' => by rwa [List.mem_singleton.mp (List.mem_filter.mp hg').1]
    refine ⟨hbroken.blanks, hbroken.content.trans ?_⟩
    rw [letters_append, hnone, List.append_nil]

theorem Keeps.foldl (h : w.Keeps taken) (limit : Nat) (trim : Bool) (gs : List Glyph) :
    (gs.foldl (Wrapping.step limit trim) w).Keeps
      (taken ++ gs.filter fun g => g.width ≤ limit) := by
  induction gs generalizing w taken with
  | nil => rwa [List.filter_nil, List.append_nil]
  | cons g gs ih =>
      rw [List.foldl_cons, ← List.singleton_append, List.filter_append, ← List.append_assoc]
      exact ih (h.step limit trim g)

theorem Keeps.flatMap_lines (h : w.Keeps taken) (trim : Bool) :
    (w.lines trim).flatMap letters = letters taken := by
  obtain ⟨rest, hlines, hrest, -⟩ := exists_lines_eq w trim
  rw [← letters_flatten, hlines, List.flatten_append, hrest, letters_append,
    letters_settle (letters_of_breaks h.blanks), ← letters_append, ← List.append_assoc]
  exact h.content

/-! ## What is pending -/

/-- The glyphs of a state that are in no finished row. -/
def pending (w : Wrapping) : List Glyph := w.line ++ w.blanks ++ w.word

theorem pending_settle (w : Wrapping) (trim : Bool) :
    (w.settle trim).pending.Sublist w.pending := by
  simp only [pending, settle, List.append_nil, List.append_assoc]
  refine (List.Sublist.refl _).append (List.Sublist.append ?_ (List.Sublist.refl _))
  split
  · exact List.nil_sublist _
  · exact List.Sublist.refl _

theorem line_settle_sublist (w : Wrapping) (trim : Bool) :
    (w.settle trim).line.Sublist w.pending := by
  refine List.Sublist.trans ?_ (w.pending_settle trim)
  rw [pending, List.append_assoc]
  exact List.sublist_append_left _ _

theorem finished_push (w : Wrapping) (g : Glyph) : (w.push g).finished = w.finished := by
  rw [push]
  split <;> rfl

theorem pending_push (h : g.isBreak = true → w.word = []) :
    (w.push g).pending = w.pending ++ [g] := by
  rw [push]
  split
  · next hbreak => simp [pending, h hbreak]
  · simp [pending]

theorem word_breakLine (w : Wrapping) (limit : Nat) : (w.breakLine limit).word = w.word := rfl

/-- What is left behind a line: all blanks are dropped, or those that fill the line, but for a
column that half of the next blank would stand in. -/
theorem totalWidth_breakLine (limit : Nat) (hblanks : ∀ g ∈ w.blanks, g.width ≤ 2) :
    (w.breakLine limit).pending = w.word ∨
      totalWidth (w.breakLine limit).pending + limit ≤ totalWidth w.pending + 1 := by
  obtain ⟨dropped, hsplit, hle, hnext⟩ := exists_dropBlanks (limit - totalWidth w.line) w.blanks
  have hpending : (w.breakLine limit).pending =
      dropBlanks (limit - totalWidth w.line) w.blanks ++ w.word := rfl
  rw [hpending]
  rw [pending, totalWidth_append, totalWidth_append]
  cases hkept : dropBlanks (limit - totalWidth w.line) w.blanks with
  | nil => exact .inl rfl
  | cons g rest =>
      have hg := hnext g (by simp [hkept])
      have hnarrow := hblanks g (by rw [hsplit, hkept]; simp)
      have hwidth := congrArg totalWidth hsplit
      rw [hkept, totalWidth_append] at hwidth
      rw [totalWidth_append]
      omega

theorem le_of_isFull (h : w.isFull limit g = true) : limit ≤ totalWidth w.pending := by
  simp only [isFull, Bool.or_eq_true, Bool.and_eq_true, decide_eq_true_eq] at h
  rw [pending, totalWidth_append, totalWidth_append]
  omega

theorem lt_of_not_isFull (hpos : 0 < g.width) (h : w.isFull limit g = false) :
    totalWidth w.pending < limit := by
  simp only [isFull, Bool.or_eq_false_iff, Bool.and_eq_false_iff, decide_eq_false_iff_not] at h
  rw [pending, totalWidth_append, totalWidth_append]
  omega

/-! ## Where the word comes from -/

/-- All glyphs of a state in their order. -/
def glyphs (w : Wrapping) : List Glyph := w.finished.reverse.flatten ++ w.pending

theorem glyphs_breakLine (w : Wrapping) (limit : Nat) :
    (w.breakLine limit).glyphs.Sublist w.glyphs := by
  have hglyphs : (w.breakLine limit).glyphs =
      w.finished.reverse.flatten ++ (w.line ++ (w.breakLine limit).blanks ++ w.word) := by
    simp [glyphs, pending, breakLine]
  rw [hglyphs]
  exact (List.Sublist.refl _).append
    (((List.Sublist.refl _).append (w.blanks_breakLine limit)).append (List.Sublist.refl _))

/-- How a state follows from the glyphs that were taken: it holds some of them in their order, the
last ones in its word. -/
structure Follows (taken : List Glyph) (w : Wrapping) : Prop where
  glyphs : w.glyphs.Sublist taken
  word : w.word <:+ taken
  noBreak : ∀ g ∈ w.word, g.isBreak = false
  inWord : w.word ≠ [] → w.inWord = true

theorem Follows.pending (h : w.Follows taken) : w.pending.Sublist taken :=
  (List.sublist_append_right _ _).trans h.glyphs

theorem Follows.ready (h : w.Follows taken) (limit : Nat) (trim : Bool) (g : Glyph) :
    (w.ready limit trim g).Follows taken := by
  rw [Wrapping.ready]
  split
  · exact ⟨((List.Sublist.refl _).append (w.pending_settle trim)).trans h.glyphs,
      List.nil_suffix, List.forall_mem_nil _, fun hne => absurd rfl hne⟩
  · exact h

theorem Follows.breakLine (h : w.Follows taken) (limit : Nat) : (w.breakLine limit).Follows taken :=
  ⟨(w.glyphs_breakLine limit).trans h.glyphs, h.word, h.noBreak, h.inWord⟩

/-- A word ends before a blank. -/
theorem Follows.ready_word (h : w.Follows taken) (limit : Nat) (trim : Bool)
    (hbreak : g.isBreak = true) : (w.ready limit trim g).word = [] := by
  rw [Wrapping.ready]
  split
  · rfl
  · next hdue =>
      by_contra hword
      simp [isDue, hbreak, h.inWord hword] at hdue

theorem Follows.push (h : w.Follows taken) (hbreak : g.isBreak = true → w.word = []) :
    (w.push g).Follows (taken ++ [g]) where
  glyphs := by
    rw [Wrapping.glyphs, finished_push, pending_push hbreak, ← List.append_assoc]
    exact h.glyphs.append (List.Sublist.refl _)
  word := by
    rw [Wrapping.push]
    split
    · next hg =>
        rw [hbreak hg]
        exact List.nil_suffix
    · exact List.suffix_append_self_iff.mpr h.word
  noBreak := by
    rw [Wrapping.push]
    split
    · exact h.noBreak
    · next hg =>
        intro g' hg'
        rcases List.mem_append.mp hg' with hg' | hg'
        · exact h.noBreak g' hg'
        · rw [List.mem_singleton.mp hg']
          exact (Bool.not_eq_true _).mp hg
  inWord := by
    rw [Wrapping.push]
    split
    · next hg => exact fun hne => absurd (hbreak hg) hne
    · exact fun _ => rfl

theorem Follows.step (h : w.Follows taken) (hfits : g.width ≤ limit) (trim : Bool) :
    (Wrapping.step limit trim w g).Follows (taken ++ [g]) := by
  have hready := h.ready limit trim g
  have hword : g.isBreak = true → (w.ready limit trim g).word = [] := h.ready_word limit trim
  have hbrokenWord : g.isBreak = true → ((w.ready limit trim g).breakLine limit).word = [] :=
    fun hbreak => (word_breakLine _ limit).trans (hword hbreak)
  apply step_of
  case wide =>
    exact fun hwide => absurd hfits (Nat.not_le.mpr hwide)
  case kept =>
    exact fun _ _ => hready.push hword
  case broken =>
    exact fun _ _ => (hready.breakLine limit).push hbrokenWord
  case dropped =>
    intro _ _ hbreak
    have hbroken := hready.breakLine limit
    refine ⟨hbroken.glyphs.trans (List.sublist_append_left taken [g]), ?_, hbroken.noBreak,
      hbroken.inWord⟩
    rw [hbrokenWord hbreak]
    exact List.nil_suffix

theorem Follows.foldl (h : w.Follows taken) (hfits : ∀ g ∈ gs, g.width ≤ limit) (trim : Bool) :
    (gs.foldl (Wrapping.step limit trim) w).Follows (taken ++ gs) := by
  induction gs generalizing w taken with
  | nil => rwa [List.append_nil]
  | cons g gs ih =>
      rw [List.forall_mem_cons] at hfits
      have hrest := ih (h.step hfits.1 trim) hfits.2
      rwa [List.append_assoc] at hrest

/-! ## How many rows there are -/

/-- Whether the rows of a state are full, but for a word each: the words before which they end are
counted twice. -/
structure Packed (limit longest : Nat) (taken : List Glyph) (w : Wrapping) : Prop where
  pending : limit * w.finished.length + totalWidth w.pending ≤
    totalWidth taken + longest * w.finished.length
  finished : w.finished ≠ [] →
    limit * w.finished.length < totalWidth taken + longest * (w.finished.length - 1)

theorem Packed.ready (h : w.Packed limit longest taken) (trim : Bool) (g : Glyph) :
    (w.ready limit trim g).Packed limit longest taken := by
  rw [Wrapping.ready]
  split
  · have hle := totalWidth_le_of_sublist (w.pending_settle trim)
    refine ⟨?_, h.finished⟩
    exact Nat.le_trans (Nat.add_le_add_left hle _) h.pending
  · exact h

theorem Packed.push (h : w.Packed limit longest taken) (hbreak : g.isBreak = true → w.word = []) :
    (w.push g).Packed limit longest (taken ++ [g]) := by
  refine ⟨?_, fun hne => ?_⟩
  · have := h.pending
    rw [finished_push, pending_push hbreak, totalWidth_append, totalWidth_append]
    omega
  · rw [finished_push] at hne ⊢
    have := h.finished hne
    rw [totalWidth_append]
    omega

/-- A line that ends before a glyph is full, but for a word. -/
theorem Packed.breakLine (h : w.Packed limit longest taken) (hfull : limit ≤ totalWidth w.pending)
    (hpos : 0 < g.width) (hblanks : ∀ g ∈ w.blanks, g.width ≤ 2)
    (hword : totalWidth w.word ≤ longest) (hlongest : 0 < longest) :
    limit * (w.breakLine limit).finished.length + totalWidth (w.breakLine limit).pending ≤
        totalWidth taken + longest * (w.breakLine limit).finished.length ∧
      limit * (w.breakLine limit).finished.length <
        totalWidth (taken ++ [g]) + longest * ((w.breakLine limit).finished.length - 1) := by
  have hlength : (w.breakLine limit).finished.length = w.finished.length + 1 := rfl
  have hpending := h.pending
  rw [hlength, Nat.mul_succ, Nat.mul_succ, Nat.add_sub_cancel, totalWidth_append, totalWidth_cons]
  rcases totalWidth_breakLine limit hblanks with heq | hle
  · rw [heq]
    omega
  · omega

theorem Packed.step (h : w.Packed limit longest taken) (hfollows : w.Follows taken)
    (hnarrow : ∀ g ∈ taken, g.width ≤ 2) (hpos : 0 < g.width) (hfits : g.width ≤ limit)
    (hwords : ∀ word, word <:+ taken → (∀ g ∈ word, g.isBreak = false) → totalWidth word ≤ longest)
    (hlongest : 0 < longest) (trim : Bool) :
    (Wrapping.step limit trim w g).Packed limit longest (taken ++ [g]) := by
  have hready := h.ready trim g
  have hfollowsReady := hfollows.ready limit trim g
  have hword : g.isBreak = true → (w.ready limit trim g).word = [] :=
    hfollows.ready_word limit trim
  have hbrokenWord : g.isBreak = true → ((w.ready limit trim g).breakLine limit).word = [] :=
    fun hbreak => (word_breakLine _ limit).trans (hword hbreak)
  have hblanks : ∀ g' ∈ (w.ready limit trim g).blanks, g'.width ≤ 2 := fun g' hg' =>
    hnarrow g' (hfollowsReady.pending.subset (by simp [Wrapping.pending, hg']))
  have hbroken := fun hfull : (w.ready limit trim g).isFull limit g = true =>
    hready.breakLine (le_of_isFull hfull) hpos hblanks
      (hwords _ hfollowsReady.word hfollowsReady.noBreak) hlongest
  apply step_of
  case wide =>
    exact fun hwide => absurd hfits (Nat.not_le.mpr hwide)
  case kept =>
    exact fun _ _ => hready.push hword
  case broken =>
    intro _ hfull
    obtain ⟨hpending, hfinished⟩ := hbroken hfull
    refine ⟨?_, fun _ => by rwa [finished_push]⟩
    rw [finished_push, pending_push hbrokenWord, totalWidth_append, totalWidth_append]
    omega
  case dropped =>
    intro _ hfull _
    obtain ⟨hpending, hfinished⟩ := hbroken hfull
    refine ⟨?_, fun _ => hfinished⟩
    rw [totalWidth_append]
    omega

/-! ## Where the glyphs of a row start -/

/-- Whether every glyph of a state starts at a column up to the one behind the limit: a glyph is put
behind a line only while a column is free. -/
structure Starts (limit : Nat) (w : Wrapping) : Prop where
  finished : ∀ row ∈ w.finished, totalWidth row.dropLast ≤ limit
  pending : totalWidth w.pending.dropLast ≤ limit
  columns : w.line ≠ [] → totalWidth w.pending ≤ limit + 1

/-- What a line leaves behind it has room in the next one: the line holds a glyph of what was too
wide by a column, or neither the blanks nor the word fill a line. -/
theorem totalWidth_breakLine_le (h : w.Starts limit)
    (hpending : ∀ g ∈ w.pending, 0 < g.width ∧ g.width ≤ 2) (hlimit : 2 ≤ limit)
    (hpos : 0 < g.width) (hdue : w.isDue limit true g = false) :
    totalWidth (w.breakLine limit).pending ≤ limit := by
  have hwidth : totalWidth w.pending =
      totalWidth w.line + totalWidth w.blanks + totalWidth w.word := by
    rw [pending, totalWidth_append, totalWidth_append]
  have hleft := totalWidth_breakLine (w := w) limit
    fun g hg => (hpending g (by simp [pending, hg])).2
  by_cases hline : w.line = []
  · simp only [isDue, hline, List.isEmpty_nil, if_true, Bool.true_and, Bool.or_eq_false_iff,
      decide_eq_false_iff_not] at hdue
    rw [hline, totalWidth_nil] at hwidth
    -- the blanks or the word would be due if they left no column for the glyph
    rcases hleft with heq | hle
    · rw [heq]
      omega
    · omega
  · have hcolumns := h.columns hline
    have hpos : 0 < totalWidth w.line := by
      obtain ⟨g', rest, hsplit⟩ := List.exists_cons_of_ne_nil hline
      have := (hpending g' (by simp [pending, hsplit])).1
      rw [hsplit, totalWidth_cons]
      omega
    rcases hleft with heq | hle
    · rw [heq]
      omega
    · omega

theorem Starts.step (h : w.Starts limit)
    (hpending : ∀ g ∈ w.pending, 0 < g.width ∧ g.width ≤ 2) (hlimit : 2 ≤ limit)
    (hword : g.isBreak = true → (w.ready limit true g).word = []) (hpos : 0 < g.width)
    (hnarrow : g.width ≤ 2) : (Wrapping.step limit true w g).Starts limit := by
  have hready : totalWidth (w.ready limit true g).pending.dropLast ≤ limit := by
    rw [ready]
    split
    · exact Nat.le_trans (totalWidth_le_of_sublist (dropLast_sublist (w.pending_settle true)))
        h.pending
    · exact h.pending
  have hfinished : (w.ready limit true g).finished = w.finished := by
    rw [ready]
    split <;> rfl
  have hbroken : totalWidth ((w.ready limit true g).breakLine limit).pending ≤ limit := by
    rw [ready]
    split
    · -- a word that is due goes to the line and leaves nothing behind
      exact Nat.zero_le limit
    · next hdue =>
        exact totalWidth_breakLine_le h hpending hlimit hpos ((Bool.not_eq_true _).mp hdue)
  have hrow : ∀ row ∈ ((w.ready limit true g).breakLine limit).finished,
      totalWidth row.dropLast ≤ limit := by
    intro row hrow
    rcases List.mem_cons.mp hrow with rfl | hrow
    · refine Nat.le_trans (totalWidth_le_of_sublist (dropLast_sublist ?_)) hready
      rw [Wrapping.pending, List.append_assoc]
      exact List.sublist_append_left _ _
    · exact h.finished row (hfinished ▸ hrow)
  apply step_of
  case wide =>
    intro _
    exact h
  case kept =>
    intro _ hfull
    have hroom := lt_of_not_isFull hpos hfull
    refine ⟨fun row hrow => h.finished row ?_, ?_, fun _ => ?_⟩
    · rwa [finished_push, hfinished] at hrow
    · rw [pending_push hword, List.dropLast_concat]
      omega
    · rw [pending_push hword, totalWidth_append, totalWidth_cons, totalWidth_nil]
      omega
  case broken =>
    intro _ _
    refine ⟨fun row hmem => hrow row (by rwa [finished_push] at hmem), ?_, fun hline => ?_⟩
    · rw [pending_push fun hbreak => (word_breakLine _ limit).trans (hword hbreak),
        List.dropLast_concat]
      exact hbroken
    · refine absurd ?_ hline
      rw [push]
      split <;> rfl
  case dropped =>
    intro _ _ _
    refine ⟨hrow, Nat.le_trans (totalWidth_le_of_sublist (List.dropLast_sublist _)) hbroken, ?_⟩
    exact fun hline => absurd rfl hline

/-! ## The whole line -/

theorem Packed.foldl (h : w.Packed limit longest taken) (hfollows : w.Follows taken)
    (hglyphs : ∀ g ∈ taken ++ gs, 0 < g.width ∧ g.width ≤ 2) (hlimit : 2 ≤ limit)
    (hwords : ∀ word, word <:+: taken ++ gs → (∀ g ∈ word, g.isBreak = false) →
      totalWidth word ≤ longest) (hlongest : 0 < longest) (trim : Bool) :
    (gs.foldl (Wrapping.step limit trim) w).Packed limit longest (taken ++ gs) := by
  induction gs generalizing w taken with
  | nil => rwa [List.append_nil]
  | cons g gs ih =>
      obtain ⟨hpos, hnarrow⟩ := hglyphs g (by simp)
      have hfits : g.width ≤ limit := by omega
      have hall : taken ++ g :: gs = taken ++ [g] ++ gs := by simp
      rw [hall] at hglyphs hwords ⊢
      refine ih (h.step hfollows ?_ hpos hfits ?_ hlongest trim) (hfollows.step hfits trim)
        hglyphs hwords
      · exact fun g' hg' => (hglyphs g' (by simp [hg'])).2
      · intro word hword hnoBreak
        refine hwords word (hword.isInfix.trans ?_) hnoBreak
        exact ⟨[], [g] ++ gs, by simp⟩

theorem Starts.foldl (h : w.Starts limit) (hfollows : w.Follows taken)
    (hglyphs : ∀ g ∈ taken ++ gs, 0 < g.width ∧ g.width ≤ 2) (hlimit : 2 ≤ limit) :
    (gs.foldl (Wrapping.step limit true) w).Starts limit := by
  induction gs generalizing w taken with
  | nil => exact h
  | cons g gs ih =>
      obtain ⟨hpos, hnarrow⟩ := hglyphs g (by simp)
      have hfits : g.width ≤ limit := by omega
      have hpending : ∀ g' ∈ w.pending, 0 < g'.width ∧ g'.width ≤ 2 := fun g' hg' =>
        hglyphs g' (List.mem_append_left _ (hfollows.pending.subset hg'))
      refine ih (h.step hpending hlimit (hfollows.ready_word limit true) hpos hnarrow)
        (hfollows.step hfits true) ?_
      rwa [List.append_assoc]

end Wrapping

section

variable {limit longest n : Nat} {gs : List Glyph}

open Glyph

/-- The rows of a line hold the letters of all glyphs that fit into a row. -/
theorem letters_wrapLine (limit : Nat) (trim : Bool) (gs : List Glyph) :
    (wrapLine limit trim gs).flatMap letters = letters (gs.filter fun g => g.width ≤ limit) := by
  have hempty : ({} : Wrapping).Keeps [] := ⟨List.forall_mem_nil _, rfl⟩
  exact (hempty.foldl limit trim gs).flatMap_lines trim

theorem follows_empty : ({} : Wrapping).Follows [] :=
  ⟨List.Sublist.refl _, List.nil_suffix, List.forall_mem_nil _, fun hne => absurd rfl hne⟩

/-- The rows of a line hold some of its glyphs in their order. -/
theorem flatten_wrapLine_sublist (hfits : ∀ g ∈ gs, g.width ≤ limit) (trim : Bool) :
    (wrapLine limit trim gs).flatten.Sublist gs := by
  have hfollows := follows_empty.foldl hfits trim
  rw [List.nil_append] at hfollows
  obtain ⟨rest, hlines, hrest, -⟩ :=
    (gs.foldl (Wrapping.step limit trim) {}).exists_lines_eq trim
  rw [wrapLine, hlines, List.flatten_append, hrest]
  exact ((List.Sublist.refl _).append (Wrapping.line_settle_sublist _ trim)).trans hfollows.glyphs

/-- A line needs no more rows than hold it when each of them but the last one misses a word. -/
theorem length_wrapLine_le (hglyphs : ∀ g ∈ gs, 0 < g.width ∧ g.width ≤ 2) (hlimit : 2 ≤ limit)
    (hwords : longestWord gs ≤ longest) (hlongest : 0 < longest) (hle : longest ≤ limit)
    (hn : totalWidth gs + longest * n ≤ limit * (n + 1)) :
    (wrapLine limit true gs).length ≤ n + 1 := by
  have hempty : ({} : Wrapping).Packed limit longest [] :=
    ⟨Nat.le_refl 0, fun hne => absurd rfl hne⟩
  have hall : ∀ g ∈ [] ++ gs, 0 < g.width ∧ g.width ≤ 2 := hglyphs
  have hpacked := hempty.foldl follows_empty hall hlimit
    (fun word hword hnoBreak => Nat.le_trans (totalWidth_le_longestWord hword hnoBreak) hwords)
    hlongest true
  rw [List.nil_append] at hpacked
  obtain ⟨rest, hlines, -, -, hrest⟩ :=
    (gs.foldl (Wrapping.step limit true) {}).exists_lines_eq true
  have hlength := hrest rfl
  rw [wrapLine, hlines, List.length_append, List.length_reverse]
  by_contra hmore
  have hfinished := hpacked.finished fun hnil => by
    rw [hnil, List.length_nil] at hmore
    omega
  -- more rows are short by more words, and a word is no longer than a row
  obtain ⟨d, hd⟩ := Nat.exists_eq_add_of_le
    (show n + 1 ≤ (gs.foldl (Wrapping.step limit true) {}).finished.length by omega)
  have hmul := Nat.mul_le_mul_right d hle
  rw [hd, show n + 1 + d - 1 = n + d by omega, Nat.mul_add limit, Nat.mul_add longest] at hfinished
  omega

/-- The rows that so many columns need at most, when words have so many columns at most. -/
def rowBound (limit longest width : Nat) : Nat :=
  (width - limit + (limit - longest) - 1) / (limit - longest) + 1

theorem length_wrapLine_le_rowBound (hglyphs : ∀ g ∈ gs, 0 < g.width ∧ g.width ≤ 2)
    (hlimit : 2 ≤ limit) (hwords : longestWord gs ≤ longest) (hlongest : 0 < longest)
    (hlt : longest < limit) :
    (wrapLine limit true gs).length ≤ rowBound limit longest (totalWidth gs) := by
  refine length_wrapLine_le hglyphs hlimit hwords hlongest (Nat.le_of_lt hlt) ?_
  have hfree : 0 < limit - longest := Nat.sub_pos_of_lt hlt
  have hdiv := Nat.div_add_mod (totalWidth gs - limit + (limit - longest) - 1) (limit - longest)
  have hmod := Nat.mod_lt (totalWidth gs - limit + (limit - longest) - 1) hfree
  generalize (totalWidth gs - limit + (limit - longest) - 1) / (limit - longest) = n at hdiv ⊢
  have hmul : limit * n = longest * n + (limit - longest) * n := by
    rw [← Nat.add_mul, Nat.add_sub_cancel' (Nat.le_of_lt hlt)]
  rw [Nat.mul_succ, hmul]
  omega

/-- Every glyph of a row starts at a column up to the one behind the limit. -/
theorem totalWidth_dropLast_le (hglyphs : ∀ g ∈ gs, 0 < g.width ∧ g.width ≤ 2)
    (hlimit : 2 ≤ limit) : ∀ row ∈ wrapLine limit true gs, totalWidth row.dropLast ≤ limit := by
  have hempty : ({} : Wrapping).Starts limit :=
    ⟨List.forall_mem_nil _, Nat.zero_le _, fun hne => absurd rfl hne⟩
  have hall : ∀ g ∈ [] ++ gs, 0 < g.width ∧ g.width ≤ 2 := hglyphs
  have hstarts := hempty.foldl follows_empty hall hlimit
  obtain ⟨rest, hlines, -, hrest, -⟩ :=
    (gs.foldl (Wrapping.step limit true) {}).exists_lines_eq true
  intro row hrow
  rw [wrapLine, hlines, List.mem_append, List.mem_reverse] at hrow
  rcases hrow with hrow | hrow
  · exact hstarts.finished row hrow
  · rcases hrest row hrow with rfl | rfl
    · exact Nat.zero_le _
    · exact Nat.le_trans
        (totalWidth_le_of_sublist (dropLast_sublist (Wrapping.line_settle_sublist _ true)))
        hstarts.pending

end

end InstallerBrowser
