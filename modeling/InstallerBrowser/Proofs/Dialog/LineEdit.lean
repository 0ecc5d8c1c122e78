import InstallerBrowser.Dialog.LineEdit
import Mathlib.Data.List.DropRight

/-!
# InstallerBrowser.Proofs.Dialog.LineEdit

The line of a dialog as two lists of characters.

The cursor is an offset in bytes, so an operation could meet it inside of a character.  `Halves` is
an editor without offsets: it holds the characters before and behind the cursor.  A line is at a
boundary exactly if it is the line of two such lists (`exists_line_iff`), and there every operation
has a result, which is the line of the two lists after the operation (`step?_line`); so the cursor
never gets inside of a character.

What `deleteSegment` removes is also found by two loops that go back over one character at a time
(`segmentStart?`), as runs of characters end at the same offsets.
-/

namespace InstallerBrowser

/-! ## Offsets -/

namespace Text

@[simp] theorem byteSize_nil : byteSize [] = 0 := rfl

@[simp] theorem byteSize_cons (c : Char) (cs : List Char) :
    byteSize (c :: cs) = c.utf8Size + byteSize cs := rfl

@[simp] theorem byteSize_append (xs ys : List Char) :
    byteSize (xs ++ ys) = byteSize xs + byteSize ys := by
  induction xs with
  | nil => simp
  | cons c xs ih => simp [ih, Nat.add_assoc]

theorem byteSize_eq_utf8ByteSize (cs : List Char) :
    byteSize cs = (String.ofList cs).utf8ByteSize := by
  induction cs with
  | nil => rfl
  | cons c cs ih =>
      rw [byteSize_cons, String.ofList_cons, String.utf8ByteSize_append,
        String.utf8ByteSize_singleton, ih]

/-- The bytes of the characters in front are where these are cut from the others. -/
theorem cutAt?_byteSize (before after : List Char) :
    cutAt? (byteSize before) (before ++ after) = some (before, after) := by
  induction before with
  | nil => rw [byteSize_nil, List.nil_append, cutAt?]
  | cons c before ih =>
      obtain ⟨n, hn⟩ : ∃ n, byteSize (c :: before) = n + 1 := by
        refine ⟨byteSize (c :: before) - 1, ?_⟩
        have hpos := c.utf8Size_pos
        rw [byteSize_cons]
        omega
      have hle : c.utf8Size ≤ n + 1 := by
        rw [← hn, byteSize_cons]
        omega
      have hrest : n + 1 - c.utf8Size = byteSize before := by
        rw [← hn, byteSize_cons]
        omega
      rw [hn, List.cons_append, cutAt?, if_pos hle, hrest, ih]
      rfl

/-! ## Going back -/

/-- Where the character before an offset starts, and 0 if there is none. -/
def previous? (cs : List Char) (n : Nat) : Option Nat :=
  (cutAt? n cs).map fun (before, _) => byteSize before.dropLast

/-- The character behind an offset, and the null character at the end. -/
def charAt? (cs : List Char) (n : Nat) : Option Char :=
  (cutAt? n cs).map fun (_, after) => after.headD '\x00'

/-- Goes back from an offset as long as the characters on the way fit, over `bound` of them at
most. -/
def walkBack? (p : Char → Bool) (cs : List Char) : Nat → Nat → Option Nat
  | _, 0 => some 0
  | 0, _ + 1 => none
  | bound + 1, n + 1 => do
    let prev ← previous? cs (n + 1)
    let c ← charAt? cs prev
    if p c then walkBack? p cs bound prev else some (n + 1)

/-- The way back ends where the last run of characters that fit starts. -/
theorem walkBack?_byteSize (p : Char → Bool) (before after : List Char) {bound : Nat}
    (hbound : byteSize before ≤ bound) :
    walkBack? p (before ++ after) bound (byteSize before) =
      some (byteSize (before.rdropWhile p)) := by
  induction before using List.reverseRecOn generalizing after bound with
  | nil => cases bound <;> rfl
  | append_singleton before c ih =>
      have hsize : byteSize (before ++ [c]) = byteSize before + c.utf8Size := by simp
      have hpos := c.utf8Size_pos
      obtain ⟨n, hn⟩ : ∃ n, byteSize (before ++ [c]) = n + 1 :=
        ⟨byteSize (before ++ [c]) - 1, by omega⟩
      obtain ⟨bound, rfl⟩ : ∃ b, bound = b + 1 := ⟨bound - 1, by omega⟩
      have hprev : previous? (before ++ [c] ++ after) (n + 1) = some (byteSize before) := by
        rw [previous?, ← hn, cutAt?_byteSize]
        simp
      have hchar : charAt? (before ++ [c] ++ after) (byteSize before) = some c := by
        rw [charAt?, List.append_assoc, cutAt?_byteSize]
        rfl
      rw [hn, walkBack?, hprev, Option.bind_eq_bind, Option.bind_some, hchar, Option.bind_eq_bind,
        Option.bind_some]
      split
      · next hc =>
          rw [List.rdropWhile_concat_pos _ _ _ hc, List.append_assoc]
          exact ih ([c] ++ after) (by omega)
      · next hc => rw [List.rdropWhile_concat_neg _ _ _ hc, hn]

end Text

open Text

/-! ## The last segment -/

namespace LineEdit

/-- A character that stands between two segments of a path: a slash, a backslash or a blank. -/
def Separates (c : Char) : Prop := c = '/' ∨ c = '\\' ∨ isBlank c = true

theorem isSeparator_iff {c : Char} : isSeparator c = true ↔ Separates c := by
  simp [isSeparator, Separates, or_assoc]

/-- The end of some characters: as many separators as there are, and before them as many other
characters. -/
structure EndsIn (before kept word separators : List Char) : Prop where
  split : before = kept ++ word ++ separators
  separators_separate : ∀ c ∈ separators, Separates c
  word_not_separate : ∀ c ∈ word, ¬ Separates c
  separators_all : ∀ c, (kept ++ word).getLast? = some c → ¬ Separates c
  word_all : ∀ c, kept.getLast? = some c → Separates c

theorem withoutLastSegment_eq (before : List Char) :
    withoutLastSegment before =
      (before.rdropWhile isSeparator).rdropWhile fun c => !isSeparator c := by
  simp [withoutLastSegment, List.rdropWhile]

/-- What is left of a run of characters at the end ends in another. -/
theorem not_of_getLast?_rdropWhile {p : Char → Bool} {cs : List Char} {c : Char}
    (h : (cs.rdropWhile p).getLast? = some c) : ¬ p c = true := by
  have hne : cs.rdropWhile p ≠ [] := fun hnil => by
    rw [hnil] at h
    cases h
  rw [List.getLast?_eq_some_getLast hne, Option.some.injEq] at h
  exact h ▸ List.rdropWhile_last_not p cs hne

/-- `deleteSegment` removes the last separators and the word before them, as a whole. -/
theorem endsIn_withoutLastSegment (before : List Char) : ∃ word separators,
    EndsIn before (withoutLastSegment before) word separators := by
  let isOther (c : Char) : Bool := !isSeparator c
  let rest := before.rdropWhile isSeparator
  have hrest : rest ++ before.rtakeWhile isSeparator = before := List.rdropWhile_append_rtakeWhile
  have hkept : withoutLastSegment before ++ rest.rtakeWhile isOther = rest := by
    rw [withoutLastSegment_eq]
    exact List.rdropWhile_append_rtakeWhile
  refine ⟨rest.rtakeWhile isOther, before.rtakeWhile isSeparator, ?_⟩
  exact
    { split := by rw [hkept, hrest]
      separators_separate := fun c hc => isSeparator_iff.mp (List.mem_rtakeWhile_imp hc)
      word_not_separate := fun c hc => by
        rw [← isSeparator_iff, Bool.not_eq_true]
        simpa [isOther] using List.mem_rtakeWhile_imp hc
      separators_all := fun c hc => by
        rw [hkept] at hc
        rw [← isSeparator_iff]
        exact not_of_getLast?_rdropWhile hc
      word_all := fun c hc => by
        rw [withoutLastSegment_eq] at hc
        rw [← isSeparator_iff]
        simpa using not_of_getLast?_rdropWhile hc }

/-- Where the segment starts that `deleteSegment` removes, by going back over the separators and
then over the other characters. -/
def segmentStart? (e : LineEdit) : Option Nat := do
  let start ← walkBack? isSeparator e.text.toList e.cursor e.cursor
  walkBack? (fun c => !isSeparator c) e.text.toList e.cursor start

end LineEdit

/-! ## Two lists of characters -/

/-- A line that is edited as the characters before and behind the cursor. -/
structure Halves where
  before : List Char
  after : List Char
deriving Repr, DecidableEq

namespace Halves

/-- The line with its cursor as an offset in bytes. -/
def line (z : Halves) : LineEdit :=
  { text := String.ofList (z.before ++ z.after), cursor := byteSize z.before }

/-- A character of a text that is pasted: a line break becomes a blank. -/
def pasted (c : Char) : Char := if c = '\n' ∨ c = '\r' then ' ' else c

/-- The two lists after an operation. -/
def step (z : Halves) : LineEdit.Operation → Halves
  | .insert c => ⟨z.before ++ [c], z.after⟩
  | .paste text => ⟨z.before ++ text.toList.map pasted, z.after⟩
  | .backspace => ⟨z.before.dropLast, z.after⟩
  | .delete => ⟨z.before, z.after.drop 1⟩
  | .left =>
    match z.before.getLast? with
    | none => z
    | some c => ⟨z.before.dropLast, c :: z.after⟩
  | .right =>
    match z.after with
    | [] => z
    | c :: rest => ⟨z.before ++ [c], rest⟩
  | .toStart => ⟨[], z.before ++ z.after⟩
  | .toEnd => ⟨z.before ++ z.after, []⟩
  | .deleteSegment => ⟨LineEdit.withoutLastSegment z.before, z.after⟩
  | .deleteToStart => ⟨[], z.after⟩

/-- The two lists after a sequence of operations. -/
def run (z : Halves) (ops : List LineEdit.Operation) : Halves := ops.foldl step z

/-! ### Lines at a boundary -/

theorem halves?_line (z : Halves) : z.line.halves? = some (z.before, z.after) := by
  rw [LineEdit.halves?, line, String.toList_ofList, cutAt?_byteSize]

theorem line_injective {z z' : Halves} (h : z.line = z'.line) : z = z' := by
  have hhalves := z.halves?_line
  rw [h, z'.halves?_line, Option.some.injEq, Prod.mk.injEq] at hhalves
  cases z
  cases z'
  simp_all

theorem cursor_line_le (z : Halves) : z.line.cursor ≤ z.line.text.utf8ByteSize := by
  rw [line, ← byteSize_eq_utf8ByteSize, byteSize_append]
  exact Nat.le_add_right _ _

theorem clamp_line (z : Halves) : z.line.clamp = z.line := by
  rw [LineEdit.clamp, Nat.min_eq_left z.cursor_line_le]

/-- A cursor is at a boundary exactly if it cuts its line in two. -/
theorem exists_line_iff {text : String} {cursor : Nat} :
    (∃ z : Halves, z.line = { text, cursor }) ↔ (String.Pos.Raw.mk cursor).IsValid text := by
  constructor
  · rintro ⟨z, hz⟩
    cases hz
    refine String.Pos.Raw.isValid_ofList.mpr ⟨z.before.length, ?_⟩
    rw [List.take_left, byteSize_eq_utf8ByteSize]
  · intro hvalid
    rw [← String.ofList_toList (s := text), String.Pos.Raw.isValid_ofList] at hvalid
    obtain ⟨i, hi⟩ := hvalid
    refine ⟨⟨text.toList.take i, text.toList.drop i⟩, ?_⟩
    rw [line, List.take_append_drop, String.ofList_toList, byteSize_eq_utf8ByteSize, ← hi]

/-- The line that a dialog starts with has its cursor at the end. -/
theorem line_ofText (text : String) : line ⟨text.toList, []⟩ = LineEdit.ofText text := by
  rw [line, List.append_nil, byteSize_eq_utf8ByteSize, String.ofList_toList, LineEdit.ofText]

/-! ### Operations -/

theorem lastOffset_line (z : Halves) : z.line.lastOffset z.before = byteSize z.before.dropLast := by
  rw [LineEdit.lastOffset]
  cases hlast : z.before.getLast? with
  | none => rw [List.getLast?_eq_none_iff.mp hlast]; rfl
  | some c =>
      have hsplit := List.dropLast_append_getLast? c hlast
      have hsize : z.line.cursor = byteSize z.before.dropLast + c.utf8Size := by
        rw [line, ← hsplit]
        simp
      dsimp only
      omega

/-- An operation on a line is the operation on its two lists. -/
theorem step?_line (z : Halves) (op : LineEdit.Operation) :
    z.line.step? op = some (z.step op).line := by
  have hcut : ∀ f : List Char × List Char → LineEdit,
      z.line.halves?.map f = some (f (z.before, z.after)) := fun f => by
    rw [halves?_line, Option.map_some]
  rw [LineEdit.step?, clamp_line]
  cases op with
  | insert c =>
      rw [LineEdit.perform?, LineEdit.insert?, LineEdit.insertAll?, hcut, step, line, line,
        byteSize_append]
  | paste text =>
      have hpasted : text.toList.map (fun c => if c == '\n' || c == '\r' then ' ' else c) =
          text.toList.map pasted := by simp [pasted]
      rw [LineEdit.perform?, LineEdit.paste?, hpasted, LineEdit.insertAll?, hcut, step, line, line,
        byteSize_append]
  | backspace =>
      rw [LineEdit.perform?, LineEdit.backspace?, hcut]
      dsimp only
      rw [lastOffset_line, step, line]
  | delete => rw [LineEdit.perform?, LineEdit.delete?, hcut, step, line, line]
  | left =>
      rw [LineEdit.perform?, LineEdit.left?, hcut]
      dsimp only
      rw [lastOffset_line, step]
      cases hlast : z.before.getLast? with
      | none => simp [line, List.getLast?_eq_none_iff.mp hlast]
      | some c =>
          have htext : z.before.dropLast ++ c :: z.after = z.before ++ z.after := by
            rw [← List.singleton_append, ← List.append_assoc, List.dropLast_append_getLast? c hlast]
          rw [line, line, htext]
  | right =>
      rw [LineEdit.perform?, LineEdit.right?, hcut, step]
      cases hafter : z.after with
      | nil => rfl
      | cons c rest => simp [line, hafter]
  | toStart => rfl
  | toEnd =>
      rw [LineEdit.perform?, LineEdit.toEnd, step, line, line]
      dsimp only
      rw [List.append_nil, byteSize_eq_utf8ByteSize (z.before ++ z.after)]
  | deleteSegment => rw [LineEdit.perform?, LineEdit.deleteSegment?, hcut, step, line]
  | deleteToStart =>
      rw [LineEdit.perform?, LineEdit.deleteToStart?, hcut, step, line]
      rfl

theorem run?_line (z : Halves) (ops : List LineEdit.Operation) :
    z.line.run? ops = some (z.run ops).line := by
  induction ops generalizing z with
  | nil => rfl
  | cons op rest ih =>
      rw [LineEdit.run?, List.foldlM_cons, step?_line]
      exact ih (z.step op)

/-- Going back finds the offset at which `deleteSegment` leaves the cursor. -/
theorem segmentStart?_line (z : Halves) :
    z.line.segmentStart? = some (z.step .deleteSegment).line.cursor := by
  let rest := z.before.rdropWhile LineEdit.isSeparator
  have hrest : rest ++ z.before.rtakeWhile LineEdit.isSeparator = z.before :=
    List.rdropWhile_append_rtakeWhile
  have hle : byteSize rest ≤ byteSize z.before := by
    rw [← hrest, byteSize_append]
    exact Nat.le_add_right _ _
  have htext : z.line.text.toList = z.before ++ z.after := String.toList_ofList
  have hfirst := walkBack?_byteSize LineEdit.isSeparator z.before z.after (Nat.le_refl _)
  have hsecond := walkBack?_byteSize (fun c => !LineEdit.isSeparator c) rest
    (z.before.rtakeWhile LineEdit.isSeparator ++ z.after) hle
  rw [← List.append_assoc, hrest, ← LineEdit.withoutLastSegment_eq] at hsecond
  rw [LineEdit.segmentStart?, htext]
  show (walkBack? _ _ (byteSize z.before) (byteSize z.before)).bind _ = _
  rw [hfirst, Option.bind_some]
  exact hsecond

/-! ## Runs -/

/-- **A line is edited as two lists of characters**: a line whose cursor is at a boundary is the
line of two lists, and after any operations it is the line of the two lists after these.  So no
operation fails, and the cursor stays at a boundary.  What `deleteSegment` removes there is as many
separators as are before the cursor and as many other characters as are before these, which going
back over one character at a time finds as well. -/
theorem run?_eq_line {text : String} {cursor : Nat}
    (hcursor : (String.Pos.Raw.mk cursor).IsValid text) :
    ∃! z : Halves, z.line = { text, cursor } ∧ ∀ ops : List LineEdit.Operation,
      let y := z.run ops
      LineEdit.run? { text, cursor } ops = some y.line ∧
        (String.Pos.Raw.mk y.line.cursor).IsValid y.line.text ∧
        y.line.cursor ≤ y.line.text.utf8ByteSize ∧
        ∃ kept word separators, LineEdit.EndsIn y.before kept word separators ∧
          y.line.step? .deleteSegment = some (line ⟨kept, y.after⟩) ∧
          y.line.segmentStart? = some (byteSize kept) := by
  obtain ⟨z, hz⟩ := exists_line_iff.mpr hcursor
  refine ⟨z, ⟨hz, fun ops => ?_⟩, fun z' hz' => line_injective (hz'.1.trans hz.symm)⟩
  intro y
  obtain ⟨word, separators, hends⟩ := LineEdit.endsIn_withoutLastSegment y.before
  refine ⟨?_, exists_line_iff.mp ⟨y, rfl⟩, y.cursor_line_le, _, word, separators, hends,
    y.step?_line .deleteSegment, y.segmentStart?_line⟩
  rw [← hz]
  exact z.run?_line ops

/-- Moves, a character and a line break between characters of several bytes. -/
def hangulEdits : List LineEdit.Operation :=
  [.left, .left, .left, .left, .backspace, .insert '정', .paste "\n", .toEnd, .deleteSegment]

theorem run?_eq_line_hangul :
    (String.Pos.Raw.mk (LineEdit.ofText "설치.exe").cursor).IsValid "설치.exe" ∧
    ∃ z : Halves, z.line = LineEdit.ofText "설치.exe" ∧
      (z.run hangulEdits).line = { text := "설정 ", cursor := 7 } ∧
      (String.Pos.Raw.mk (z.run hangulEdits).line.cursor).IsValid (z.run hangulEdits).line.text ∧
      (z.run hangulEdits).line.segmentStart? = some 0 := by
  have hvalid : (String.Pos.Raw.mk (LineEdit.ofText "설치.exe").cursor).IsValid "설치.exe" :=
    exists_line_iff.mp ⟨_, line_ofText "설치.exe"⟩
  obtain ⟨z, ⟨hz, hall⟩, _⟩ := run?_eq_line hvalid
  obtain ⟨hrun, hboundary, _⟩ := hall hangulEdits
  have hresult : (LineEdit.ofText "설치.exe").run? hangulEdits =
      some { text := "설정 ", cursor := 7 } := by decide +kernel
  have hline : (z.run hangulEdits).line = { text := "설정 ", cursor := 7 } :=
    Option.some.inj (hrun.symm.trans hresult)
  refine ⟨hvalid, z, hz, hline, hboundary, ?_⟩
  rw [hline]
  decide +kernel

end Halves

end InstallerBrowser
