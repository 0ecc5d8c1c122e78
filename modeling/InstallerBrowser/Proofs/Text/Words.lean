import InstallerBrowser.Text.Words
import Mathlib.Data.List.Basic

/-!
# InstallerBrowser.Proofs.Text.Words

What the words of a line keep of it.

A character of a line finishes a word or not, and leads to another place (`wordsFrom_cons`).  So the
characters of the words stand in the line in the same order (`flatten_sublist`), but the first mark,
which is a gap, a quote or a backslash, is lost (`exists_lost`).
-/

namespace InstallerBrowser.Text

variable {place : WordPlace} {word cs : List Char} {words : List (List Char)} {c : Char}

/-! ## One character -/

/-- The place behind a character, and the word so far. -/
def nextPlace : WordPlace → List Char → Char → WordPlace × List Char
  | .gap, _, c =>
    if isWordGap c then (.gap, []) else if c = '#' then (.comment, []) else bareStep [] c
  | .comment, _, c => (if c = '\n' then .gap else .comment, [])
  | .bare, word, c => if isWordGap c then (.gap, []) else bareStep word c
  | .bareEscape, word, c => (.bare, if c = '\n' then word else c :: word)
  | .single, word, c => if c = '\'' then (.bare, word) else (.single, c :: word)
  | .double, word, c =>
    if c = '"' then (.bare, word)
    else if c = '\\' then (.doubleEscape, word)
    else (.double, c :: word)
  | .doubleEscape, word, c =>
    (.double, if c = '\n' then word
      else if doubleEscapes.contains c then c :: word
      else c :: '\\' :: word)

/-- The word that a character finishes, if there is one. -/
def finished (place : WordPlace) (word : List Char) (c : Char) : List (List Char) :=
  if place = .bare ∧ isWordGap c = true then [word.reverse] else []

theorem wordsFrom_cons : wordsFrom place word (c :: cs) =
    (wordsFrom (nextPlace place word c).1 (nextPlace place word c).2 cs).map
      (finished place word c ++ ·) := by
  have hnone : ∀ words : Option (List (List Char)), words.map ([] ++ ·) = words := by
    intro words
    cases words <;> rfl
  cases place with
  | bare =>
      simp only [wordsFrom, nextPlace, finished]
      split
      · next h => simp [h]
      · next h => simp [h]
  | gap =>
      simp only [wordsFrom, nextPlace, finished, reduceCtorEq, false_and, if_false, hnone]
      split
      · rfl
      · split <;> rfl
  | single =>
      simp only [wordsFrom, nextPlace, finished, reduceCtorEq, false_and, if_false, hnone]
      split <;> rfl
  | double =>
      simp only [wordsFrom, nextPlace, finished, reduceCtorEq, false_and, if_false, hnone]
      split
      · rfl
      · split <;> rfl
  | _ => simp only [wordsFrom, nextPlace, finished, reduceCtorEq, false_and, if_false, hnone]

/-! ## Marks -/

/-- A character that separates words, quotes or escapes. -/
def isMark (c : Char) : Bool := isWordGap c || c == '"' || c == '\'' || c == '\\'

/-- The places outside of quotes and escapes. -/
def isOutside : WordPlace → Bool
  | .gap | .comment | .bare => true
  | _ => false

theorem isMark_of_isAlphanum (h : c.isAlphanum = true) : isMark c = false := by
  rw [← Bool.not_eq_true]
  simp only [isMark, isWordGap, Bool.or_eq_true, beq_iff_eq]
  rintro (((((rfl | rfl) | rfl) | rfl) | rfl) | rfl) <;> cases h

theorem isWordGap_of_not_mark (h : isMark c = false) : isWordGap c = false := by
  simp only [isMark, Bool.or_eq_false_iff] at h
  exact h.1.1.1

theorem bareStep_of_not_mark (h : isMark c = false) : bareStep word c = (.bare, c :: word) := by
  simp only [isMark, Bool.or_eq_false_iff, beq_eq_false_iff_ne] at h
  obtain ⟨⟨⟨-, hdouble⟩, hsingle⟩, hescape⟩ := h
  rw [bareStep, if_neg hdouble, if_neg hsingle, if_neg hescape]

/-- A mark inside of a word is not kept. -/
theorem bareStep_of_mark (word : List Char) (h : isMark c = true) (hgap : isWordGap c = false) :
    ∃ place, place ≠ .doubleEscape ∧ bareStep word c = (place, word) := by
  simp only [isMark, hgap, Bool.false_or, Bool.or_eq_true, beq_iff_eq] at h
  rcases h with (rfl | rfl) | rfl
  · exact ⟨.double, by decide, rfl⟩
  · exact ⟨.single, by decide, rfl⟩
  · exact ⟨.bareEscape, by decide, rfl⟩

/-! ## What is kept -/

/-- What was read of a word that is not finished: a backslash between double quotes is kept if it
escapes nothing. -/
def kept (place : WordPlace) (word : List Char) : List Char :=
  match place with
  | .doubleEscape => word.reverse ++ ['\\']
  | _ => word.reverse

theorem kept_of_ne (h : place ≠ .doubleEscape) : kept place word = word.reverse := by
  cases place <;> first | rfl | exact absurd rfl h

theorem finished_of_ne (h : place ≠ .bare) : finished place word c = [] :=
  if_neg fun hbare => h hbare.1

theorem kept_of_isOutside (h : isOutside place = true) : kept place word = word.reverse :=
  kept_of_ne fun heq => by
    rw [heq] at h
    cases h

theorem kept_bareStep_sublist :
    (kept (bareStep word c).1 (bareStep word c).2).Sublist (word.reverse ++ [c]) := by
  rw [bareStep]
  split
  · simp [kept]
  · split
    · simp [kept]
    · split <;> simp [kept]

/-- A character is kept once at most. -/
theorem kept_nextPlace_sublist (place : WordPlace) (word : List Char) (c : Char) :
    ((finished place word c).flatten ++
        kept (nextPlace place word c).1 (nextPlace place word c).2).Sublist
      (kept place word ++ [c]) := by
  by_cases hplace : place = .bare
  · subst hplace
    by_cases hgap : isWordGap c = true
    · simp [finished, nextPlace, hgap, kept]
    · simpa [finished, nextPlace, hgap, kept_of_ne] using kept_bareStep_sublist
  · rw [finished_of_ne hplace, List.flatten_nil, List.nil_append]
    cases place with
    | gap =>
        rw [nextPlace]
        split
        · simp [kept]
        · split
          · simp [kept]
          · exact kept_bareStep_sublist.trans (by simp [kept])
    | bare => exact absurd rfl hplace
    | comment =>
        rw [nextPlace]
        split <;> simp [kept]
    | bareEscape =>
        rw [nextPlace]
        split <;> simp [kept]
    | single =>
        rw [nextPlace]
        split <;> simp [kept]
    | double =>
        rw [nextPlace]
        split
        · simp [kept]
        · split
          · next h => simp [kept, h]
          · simp [kept]
    | doubleEscape =>
        rw [nextPlace]
        split
        · simp [kept]
        · split <;> simp [kept]

/-- The words hold characters of the text, in their order. -/
theorem flatten_sublist (h : wordsFrom place word cs = some words) :
    words.flatten.Sublist (kept place word ++ cs) := by
  induction cs generalizing place word words with
  | nil =>
      cases place <;> simp only [wordsFrom, Option.some.injEq, reduceCtorEq] at h <;> subst h <;>
        simp [kept]
  | cons c cs ih =>
      rw [wordsFrom_cons, Option.map_eq_some_iff] at h
      obtain ⟨rest, hrest, rfl⟩ := h
      rw [List.flatten_append, List.append_cons]
      refine ((ih hrest).append_left _).trans ?_
      rw [← List.append_assoc]
      exact (kept_nextPlace_sublist place word c).append_right cs

/-! ## What is lost -/

theorem isOutside_nextPlace (word : List Char) (hplace : isOutside place = true) (hc : isMark c = false) :
    isOutside (nextPlace place word c).1 = true := by
  have hgap := isWordGap_of_not_mark hc
  cases place with
  | gap =>
      simp only [nextPlace, hgap, Bool.false_eq_true, if_false]
      split
      · rfl
      · rw [bareStep_of_not_mark hc]
        rfl
  | comment =>
      rw [nextPlace]
      split <;> rfl
  | bare => simp only [nextPlace, hgap, Bool.false_eq_true, if_false, bareStep_of_not_mark hc,
      isOutside]
  | _ => cases hplace

/-- A mark outside of quotes and escapes is not kept. -/
theorem kept_nextPlace_of_mark (hplace : isOutside place = true) (hc : isMark c = true) :
    ((finished place word c).flatten ++
        kept (nextPlace place word c).1 (nextPlace place word c).2).Sublist word.reverse := by
  cases place with
  | gap =>
      rw [finished_of_ne (by decide), nextPlace]
      split
      · simp [kept]
      · next hgap =>
          split
          · simp [kept]
          · obtain ⟨place, hplace, hstep⟩ := bareStep_of_mark [] hc (by simpa using hgap)
            rw [hstep, kept_of_ne hplace]
            simp
  | comment =>
      rw [finished_of_ne (by decide), nextPlace]
      split <;> simp [kept]
  | bare =>
      by_cases hgap : isWordGap c = true
      · simp [finished, nextPlace, hgap, kept]
      · obtain ⟨place, hplace, hstep⟩ := bareStep_of_mark word hc (by simpa using hgap)
        simp [finished, nextPlace, hgap, hstep, kept_of_ne hplace]
  | _ => cases hplace

/-- Of a text with marks, the words miss one. -/
theorem exists_lost (hplace : isOutside place = true) (h : wordsFrom place word cs = some words)
    (hmark : ∃ c ∈ cs, isMark c = true) :
    ∃ front mark back, cs = front ++ mark :: back ∧ isMark mark = true ∧
      words.flatten.Sublist (word.reverse ++ (front ++ back)) := by
  induction cs generalizing place word words with
  | nil =>
      obtain ⟨c, hc, -⟩ := hmark
      cases hc
  | cons c cs ih =>
      rw [wordsFrom_cons, Option.map_eq_some_iff] at h
      obtain ⟨rest, hrest, rfl⟩ := h
      rw [List.flatten_append]
      cases hc : isMark c with
      | true =>
          refine ⟨[], c, cs, rfl, hc, ?_⟩
          refine ((flatten_sublist hrest).append_left _).trans ?_
          rw [← List.append_assoc]
          exact (kept_nextPlace_of_mark hplace hc).append_right cs
      | false =>
          have hnext := isOutside_nextPlace word hplace hc
          have hrestMark : ∃ c ∈ cs, isMark c = true := by
            obtain ⟨d, hd, hmark⟩ := hmark
            rcases List.mem_cons.mp hd with rfl | hd
            · rw [hc] at hmark
              cases hmark
            · exact ⟨d, hd, hmark⟩
          obtain ⟨front, mark, back, rfl, hmark, hsub⟩ := ih hnext hrest hrestMark
          refine ⟨c :: front, mark, back, rfl, hmark, ?_⟩
          have hstep := kept_nextPlace_sublist place word c
          rw [kept_of_isOutside hplace, kept_of_isOutside hnext] at hstep
          refine (hsub.append_left _).trans ?_
          rw [← List.append_assoc, List.cons_append, List.append_cons]
          exact hstep.append_right _

/-! ## Texts without marks -/

theorem wordsFrom_append_of_no_mark {front : List Char} (h : ∀ c ∈ front, isMark c = false) :
    wordsFrom .bare word (front ++ cs) = wordsFrom .bare (front.reverse ++ word) cs := by
  induction front generalizing word with
  | nil => rfl
  | cons c front ih =>
      rw [List.forall_mem_cons] at h
      have hgap := isWordGap_of_not_mark h.1
      rw [List.cons_append, wordsFrom]
      simp only [hgap, Bool.false_eq_true, if_false, bareStep_of_not_mark h.1]
      rw [ih h.2, List.reverse_cons, List.append_assoc]
      rfl

/-- Characters without marks start a word, unless they start a comment. -/
theorem wordsFrom_gap_of_no_mark {front : List Char} (cs : List Char) (hne : front ≠ [])
    (h : ∀ c ∈ front, isMark c = false) (hcomment : front.head? ≠ some '#') :
    wordsFrom .gap [] (front ++ cs) = wordsFrom .bare front.reverse cs := by
  cases front with
  | nil => exact absurd rfl hne
  | cons c front =>
      rw [List.forall_mem_cons] at h
      have hgap := isWordGap_of_not_mark h.1
      have hc : c ≠ '#' := by simpa using hcomment
      rw [List.cons_append, wordsFrom]
      simp only [hgap, hc, Bool.false_eq_true, if_false, bareStep_of_not_mark h.1]
      rw [wordsFrom_append_of_no_mark h.2, List.reverse_cons]

/-- A comment without marks goes up to the end. -/
theorem wordsFrom_comment_of_no_mark (h : ∀ c ∈ cs, isMark c = false) :
    wordsFrom .comment word cs = some [] := by
  induction cs generalizing word with
  | nil => rfl
  | cons c cs ih =>
      rw [List.forall_mem_cons] at h
      have hc : c ≠ '\n' := fun heq => by
        rw [heq] at h
        cases h.1
      rw [wordsFrom, if_neg hc, ih h.2]

/-- Behind a word that is not finished, its characters still stand in front. -/
theorem nextPlace_inside (hgap : place ≠ .gap) (hcomment : place ≠ .comment)
    (hfinished : finished place word c = []) :
    (nextPlace place word c).1 ≠ .gap ∧ (nextPlace place word c).1 ≠ .comment ∧
      word.reverse <+: (nextPlace place word c).2.reverse := by
  cases place with
  | gap => exact absurd rfl hgap
  | comment => exact absurd rfl hcomment
  | bare =>
      have hc : ¬ isWordGap c = true := by simpa [finished] using hfinished
      rw [nextPlace, if_neg hc, bareStep]
      split
      · simp
      · split
        · simp
        · split <;> simp
  | bareEscape =>
      rw [nextPlace]
      split <;> simp
  | single =>
      rw [nextPlace]
      split <;> simp
  | double =>
      rw [nextPlace]
      split
      · simp
      · split <;> simp
  | doubleEscape =>
      rw [nextPlace]
      split
      · simp
      · split <;> simp

/-- Words that are read from inside of a word start with what was read of it. -/
theorem exists_cons_of_inside (hgap : place ≠ .gap) (hcomment : place ≠ .comment)
    (h : wordsFrom place word cs = some words) :
    ∃ first rest, words = first :: rest ∧ word.reverse <+: first := by
  induction cs generalizing place word words with
  | nil =>
      cases place with
      | bare =>
          cases h
          exact ⟨_, _, rfl, List.prefix_rfl⟩
      | gap => exact absurd rfl hgap
      | comment => exact absurd rfl hcomment
      | _ => cases h
  | cons c cs ih =>
      rw [wordsFrom_cons, Option.map_eq_some_iff] at h
      obtain ⟨rest, hrest, rfl⟩ := h
      by_cases hends : place = .bare ∧ isWordGap c = true
      · have hword : finished place word c = [word.reverse] := if_pos hends
        rw [hword]
        exact ⟨word.reverse, rest, rfl, List.prefix_rfl⟩
      · have hnone : finished place word c = [] := if_neg hends
        obtain ⟨hgap', hcomment', hprefix⟩ := nextPlace_inside hgap hcomment hnone
        obtain ⟨first, others, rfl, hfirst⟩ := ih hgap' hcomment' hrest
        rw [hnone]
        exact ⟨first, others, rfl, hprefix.trans hfirst⟩

/-! ## Quotes that are left open -/

/-- The places that characters without marks do not leave. -/
def isSettled : WordPlace → Bool
  | .comment | .bare | .single | .double => true
  | _ => false

theorem nextPlace_of_isSettled (word : List Char) (hplace : isSettled place = true) (hc : isMark c = false) :
    (nextPlace place word c).1 = place := by
  have hgap := isWordGap_of_not_mark hc
  have hmarks := hc
  simp only [isMark, Bool.or_eq_false_iff, beq_eq_false_iff_ne] at hmarks
  obtain ⟨⟨⟨-, hdouble⟩, hsingle⟩, hescape⟩ := hmarks
  cases place with
  | comment =>
      have hbreak : c ≠ '\n' := fun heq => by
        rw [heq] at hc
        cases hc
      simp [nextPlace, hbreak]
  | bare => simp [nextPlace, hgap, bareStep_of_not_mark hc]
  | single => simp [nextPlace, hsingle]
  | double => simp [nextPlace, hdouble, hescape]
  | _ => cases hplace

theorem isSettled_of_slash : isSettled (nextPlace place word '/').1 = true := by
  cases place <;> rfl

theorem wordsFrom_eq_none_iff (hplace : isSettled place = true) (h : ∀ c ∈ cs, isMark c = false) :
    wordsFrom place word cs = none ↔ place = .single ∨ place = .double := by
  induction cs generalizing word with
  | nil =>
      cases place with
      | comment | bare | single | double => simp [wordsFrom]
      | _ => cases hplace
  | cons c cs ih =>
      rw [List.forall_mem_cons] at h
      have hnext := nextPlace_of_isSettled word hplace h.1
      rw [wordsFrom_cons, hnext, Option.map_eq_none_iff]
      exact ih h.2

theorem wordsFrom_slash_eq_none_iff {name : List Char} (h : ∀ c ∈ name, isMark c = false) :
    wordsFrom place word (cs ++ '/' :: name) = none ↔ wordsFrom place word (cs ++ ['/']) = none := by
  induction cs generalizing place word with
  | nil =>
      rw [List.nil_append, List.nil_append, wordsFrom_cons, wordsFrom_cons, Option.map_eq_none_iff,
        Option.map_eq_none_iff, wordsFrom_eq_none_iff isSettled_of_slash h,
        wordsFrom_eq_none_iff isSettled_of_slash (by simp)]
  | cons c cs ih =>
      rw [List.cons_append, List.cons_append, wordsFrom_cons, wordsFrom_cons,
        Option.map_eq_none_iff, Option.map_eq_none_iff, ih]

/-! ## Lines -/

section Lines

variable {text : String}

/-- A line that has no marks and is no comment is one word. -/
theorem splitWords_of_no_mark (hne : text ≠ "") (h : ∀ c ∈ text.toList, isMark c = false)
    (hcomment : text.toList.head? ≠ some '#') : splitWords text = some [text] := by
  have hwords := wordsFrom_gap_of_no_mark [] (by simpa using hne) h hcomment
  rw [List.append_nil] at hwords
  rw [splitWords, hwords, wordsFrom]
  simp

theorem splitWords_comment (h : ∀ c ∈ text.toList, isMark c = false)
    (hcomment : text.toList.head? = some '#') : splitWords text = some [] := by
  obtain ⟨cs, hcs⟩ := List.head?_eq_some_iff.mp hcomment
  rw [hcs, List.forall_mem_cons] at h
  rw [splitWords, hcs, wordsFrom]
  simp [isWordGap, wordsFrom_comment_of_no_mark h.2]

/-- A name without marks, behind a slash, leaves no quote open and closes none. -/
theorem splitWords_slash_eq_none_iff {dir name : String}
    (h : ∀ c ∈ name.toList, isMark c = false) :
    splitWords (dir ++ "/" ++ name) = none ↔ splitWords (dir ++ "/") = none := by
  have hslash : "/".toList = ['/'] := rfl
  rw [splitWords, splitWords, Option.map_eq_none_iff, Option.map_eq_none_iff, String.toList_append,
    String.toList_append, hslash, List.append_assoc, List.singleton_append,
    wordsFrom_slash_eq_none_iff h]

theorem toList_sublist_of_splitWords {word : String} (h : splitWords text = some [word]) :
    word.toList.Sublist text.toList := by
  obtain ⟨words, hwords, hword⟩ := Option.map_eq_some_iff.mp h
  obtain ⟨cs, rest, rfl, rfl, hrest⟩ := List.map_eq_cons_iff.mp hword
  cases List.map_eq_nil_iff.mp hrest
  simpa [kept] using flatten_sublist hwords

/-- A single word of a line with marks misses one of them. -/
theorem countP_isMark_lt {word : String} (h : splitWords text = some [word])
    (hmark : ∃ c ∈ text.toList, isMark c = true) :
    word.toList.countP isMark < text.toList.countP isMark := by
  obtain ⟨words, hwords, hword⟩ := Option.map_eq_some_iff.mp h
  obtain ⟨cs, rest, rfl, rfl, hrest⟩ := List.map_eq_cons_iff.mp hword
  cases List.map_eq_nil_iff.mp hrest
  obtain ⟨front, mark, back, htext, hlost, hsub⟩ := exists_lost rfl hwords hmark
  have hle : cs.countP isMark ≤ (front ++ back).countP isMark := by
    simpa using hsub.countP_le
  rw [String.toList_ofList, htext, List.countP_append, List.countP_cons_of_pos hlost]
  rw [List.countP_append] at hle
  omega

/-- Characters without marks in front of a line stand in front of its first word. -/
theorem exists_cons_of_front {words : List String} {front cs : List Char}
    (h : splitWords text = some words) (htext : text.toList = front ++ cs) (hne : front ≠ [])
    (hmarks : ∀ c ∈ front, isMark c = false) (hcomment : front.head? ≠ some '#') :
    ∃ first rest, words = first :: rest ∧ front <+: first.toList := by
  obtain ⟨parts, hparts, rfl⟩ := Option.map_eq_some_iff.mp h
  rw [htext, wordsFrom_gap_of_no_mark cs hne hmarks hcomment] at hparts
  obtain ⟨first, rest, rfl, hprefix⟩ := exists_cons_of_inside (by decide) (by decide) hparts
  rw [List.reverse_reverse] at hprefix
  exact ⟨String.ofList first, rest.map String.ofList, rfl, by rwa [String.toList_ofList]⟩

end Lines

end InstallerBrowser.Text
