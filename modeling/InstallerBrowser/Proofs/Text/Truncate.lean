import InstallerBrowser.Dialog.InputField
import InstallerBrowser.Text.Truncate
import Mathlib.Logic.Basic

/-!
# InstallerBrowser.Proofs.Text.Truncate

What a shortened text looks like.

Whether a text fits is told by its width as a text, and what is kept of it by the columns of its
characters.  The two differ where a character takes more in a text than alone (`gain`): a control
character does, and a character that the selector behind it turns into an emoji.  A text is never
wider than its columns and its gains together (`width_le`), so a shortened one is too wide by its
gains at most, and its two parts can overlap only where these make up for the ellipsis
(`shortens_truncate`).
-/

namespace InstallerBrowser.Text

variable {limit lo hi n : Nat} {cs front back xs ys : List Char} {c : Char} {next : Follow}
  {head : Option Char} {table : Array (Nat × Nat)}

/-! ## Columns -/

theorem columns_cons (c : Char) (cs : List Char) :
    columns (c :: cs) = charWidth c + columns cs := rfl

theorem columns_append (xs ys : List Char) : columns (xs ++ ys) = columns xs + columns ys := by
  induction xs with
  | nil => exact (Nat.zero_add _).symm
  | cons c rest ih => rw [List.cons_append, columns_cons, columns_cons, ih, Nat.add_assoc]

theorem columns_reverse (cs : List Char) : columns cs.reverse = columns cs := by
  induction cs with
  | nil => rfl
  | cons c rest ih =>
      rw [List.reverse_cons, columns_append, ih, columns_cons, Nat.add_comm]
      rfl

theorem columns_le_of_prefix (h : xs <+: ys) : columns xs ≤ columns ys := by
  obtain ⟨rest, rfl⟩ := h
  rw [columns_append]
  exact Nat.le_add_right _ _

/-! ## What is kept -/

theorem takeWidth_isPrefix (limit : Nat) (cs : List Char) : takeWidth limit cs <+: cs := by
  induction cs generalizing limit with
  | nil => exact List.nil_prefix
  | cons c rest ih =>
      rw [takeWidth]
      split
      · exact (List.prefix_cons_inj c).mpr (ih _)
      · exact List.nil_prefix

theorem columns_takeWidth_le (limit : Nat) (cs : List Char) :
    columns (takeWidth limit cs) ≤ limit := by
  induction cs generalizing limit with
  | nil => exact Nat.zero_le _
  | cons c rest ih =>
      rw [takeWidth]
      split
      · next hfits =>
          have hrest := ih (limit - charWidth c)
          rw [columns_cons]
          omega
      · exact Nat.zero_le _

theorem takeWidthRight_isSuffix (limit : Nat) (cs : List Char) : takeWidthRight limit cs <:+ cs := by
  rw [takeWidthRight, ← List.reverse_prefix, List.reverse_reverse]
  exact takeWidth_isPrefix limit cs.reverse

theorem columns_takeWidthRight_le (limit : Nat) (cs : List Char) :
    columns (takeWidthRight limit cs) ≤ limit := by
  rw [takeWidthRight, columns_reverse]
  exact columns_takeWidth_le limit cs.reverse

/-- A front part and an end part that take less than the whole do not overlap. -/
theorem length_add_length_le (hfront : front <+: cs) (hback : back <:+ cs)
    (h : columns front + columns back < columns cs) : front.length + back.length ≤ cs.length := by
  refine Nat.le_of_not_lt fun hlong => ?_
  -- what is in front of the end part would lie in the front part
  obtain ⟨before, rfl⟩ := hback
  have hlen : before.length ≤ front.length := by
    rw [List.length_append] at hlong
    omega
  have hbefore : before <+: front :=
    List.prefix_of_prefix_length_le (List.prefix_append before back) hfront hlen
  have hle := columns_le_of_prefix hbefore
  rw [columns_append] at h
  omega

/-! ## Gains -/

/-- The selector of the emoji form. -/
def emojiSelector : Char := Char.ofNat 0xFE0F

/-- What a character takes in a text more than alone, by the character behind it: a control
character takes one column, and one with an emoji form takes two if the selector is behind it. -/
def gain (c : Char) (behind : Option Char) : Nat :=
  if isControl c then 1
  else if behind = some emojiSelector ∧ inRanges emojiBaseRanges c.toNat = true then
    2 - charWidth c
  else 0

/-- What the characters of a text take more than alone. -/
def gains : List Char → Nat
  | [] => 0
  | c :: cs => gain c cs.head? + gains cs

theorem gains_cons (c : Char) (cs : List Char) : gains (c :: cs) = gain c cs.head? + gains cs := rfl

theorem charWidth_of_isControl (h : isControl c = true) : charWidth c = 0 := by
  simp only [isControl, Bool.or_eq_true, Bool.and_eq_true, decide_eq_true_eq] at h
  unfold charWidth
  simp only
  split
  · rfl
  · split
    · omega
    · rw [if_pos (by omega)]

theorem exists_range_of_inRangesBetween (h : inRangesBetween table n lo hi = true) :
    ∃ range ∈ table, range.1 ≤ n ∧ n ≤ range.2 := by
  fun_induction inRangesBetween table n lo hi with
  | case1 => cases h
  | case2 lo hi _ mid first last _ _ ih => exact ih h
  | case3 lo hi _ mid first last _ _ _ ih => exact ih h
  | case4 lo hi _ mid first last hmid hfirst hlast =>
      exact ⟨(first, last), Array.mem_of_getElem? hmid, Nat.not_lt.mp hfirst, Nat.not_lt.mp hlast⟩
  | case5 => cases h

/-- A character with an emoji form takes a column without it as well. -/
theorem charWidth_pos_of_emojiBase (h : inRanges emojiBaseRanges c.toNat = true) :
    0 < charWidth c := by
  have hall : ∀ range ∈ emojiBaseRanges.toList, ∀ k < range.2 + 1 - range.1,
      0 < charWidth (Char.ofNat (range.1 + k)) := by
    decide +kernel
  obtain ⟨range, hrange, hfirst, hlast⟩ := exists_range_of_inRangesBetween h
  have hpos := hall range (Array.mem_toList_iff.mpr hrange) (c.toNat - range.1) (by omega)
  rwa [Nat.add_sub_cancel' hfirst, Char.ofNat_toNat] at hpos

theorem plainWidth_le (c : Char) (behind : Option Char) :
    plainWidth c ≤ charWidth c + gain c behind := by
  unfold plainWidth gain
  split
  · exact Nat.le_add_left 1 _
  · exact Nat.le_add_right _ _

theorem le_gain_of_emojiBase (hbase : inRanges emojiBaseRanges c.toNat = true) :
    2 ≤ charWidth c + gain c (some emojiSelector) := by
  have hpos := charWidth_pos_of_emojiBase hbase
  have hplain : ¬ isControl c = true := fun hcontrol => by
    rw [charWidth_of_isControl hcontrol] at hpos
    exact Nat.lt_irrefl 0 hpos
  rw [gain, if_neg hplain, if_pos ⟨rfl, hbase⟩]
  omega

theorem charWidth_tifinaghJoiner (h : c.toNat = 0x2D7F) : charWidth c = 1 := by
  simp only [charWidth, h]
  decide +kernel

/-- What a character adds is what it takes alone and its gain, at most. -/
theorem widthBefore_le (hnext : ∀ joined, next = .emojiForm joined → head = some emojiSelector) :
    (widthBefore c next).1 ≤ charWidth c + gain c head := by
  have hown := plainWidth_le c head
  cases next with
  | plain => exact hown
  | lineFeed | regional | emoji | coengLetter | lisuTone | vowelYa =>
      simp only [widthBefore]
      split <;> first | exact Nat.zero_le _ | exact hown
  | skinTone | joinedEmoji | alef | lamed _ | oldTurkic _ | ya _ =>
      simp only [widthBefore]
      repeat' split
      all_goals first | exact Nat.zero_le _ | exact hown
  | emojiForm joined =>
      have hselector := hnext joined rfl
      subst hselector
      simp only [widthBefore]
      split
      · next hbase =>
          have htwo := le_gain_of_emojiBase hbase
          split
          · exact Nat.zero_le _
          · exact htwo
      · exact hown
  | textForm =>
      simp only [widthBefore]
      split
      · next hbase => exact Nat.le_add_right_of_le (charWidth_pos_of_emojiBase hbase.2.1)
      · exact hown
  | tifinagh joined =>
      simp only [widthBefore]
      split
      · next hjoiner => rw [charWidth_tifinaghJoiner hjoiner]; exact Nat.le_add_right 1 _
      · repeat' split
        all_goals first | exact Nat.zero_le _ | exact hown

theorem toNat_of_ofChar {joined : Bool} (h : Follow.ofChar n = .emojiForm joined) : n = 0xFE0F := by
  simp only [Follow.ofChar, ite_eq_iff, reduceCtorEq, and_false, or_false, false_or] at h
  exact h.2.2.1

/-- Only the selector asks for the emoji form. -/
theorem eq_emojiSelector {joined : Bool} (h : (widthBefore c next).2.2 = .emojiForm joined) :
    c = emojiSelector := by
  have hown : Follow.ofChar c.toNat = .emojiForm joined → c = emojiSelector := fun h => by
    rw [emojiSelector, ← toNat_of_ofChar h, Char.ofNat_toNat]
  have hself : c.toNat = 0xFE0F → c = emojiSelector := fun h => by
    rw [emojiSelector, ← h, Char.ofNat_toNat]
  cases next with
  | plain => exact hown h
  | skinTone | joinedEmoji =>
      simp only [widthBefore] at h
      repeat' split at h
      all_goals first | exact hself ‹_› | exact hown h | cases h
  | lineFeed | regional | emoji | emojiForm _ | textForm | alef | lamed _ | coengLetter | tifinagh _
  | lisuTone | oldTurkic _ | ya _ | vowelYa =>
      simp only [widthBefore] at h
      repeat' split at h
      all_goals first | exact hown h | cases h

theorem head?_of_emojiForm {joined : Bool} (h : (widthFrom cs).2 = .emojiForm joined) :
    cs.head? = some emojiSelector := by
  cases cs with
  | nil => cases h
  | cons c rest => rw [List.head?_cons, eq_emojiSelector h]

/-- **A text is no wider than its columns and its gains.** -/
theorem listWidth_le (cs : List Char) : listWidth cs ≤ columns cs + gains cs := by
  induction cs with
  | nil => exact Nat.le_refl 0
  | cons c rest ih =>
      have hmore : (widthBefore c (widthFrom rest).2).1 ≤ charWidth c + gain c rest.head? :=
        widthBefore_le fun _ => head?_of_emojiForm
      have hsum : listWidth (c :: rest) ≤
          listWidth rest + (widthBefore c (widthFrom rest).2).1 := Nat.sub_le _ _
      rw [columns_cons, gains_cons]
      omega

theorem width_le (s : String) : width s ≤ columns s.toList + gains s.toList := listWidth_le s.toList

/-! ### Gains of parts -/

theorem gain_none_le (c : Char) (behind : Option Char) : gain c none ≤ gain c behind := by
  unfold gain
  split
  · exact Nat.le_refl 1
  · rw [if_neg fun h => nomatch h.1]
    exact Nat.zero_le _

/-- Where no selector follows, the gains of two parts are those of the whole. -/
theorem gains_append (h : ys.head? ≠ some emojiSelector) :
    gains (xs ++ ys) = gains xs + gains ys := by
  induction xs with
  | nil => exact (Nat.zero_add _).symm
  | cons c rest ih =>
      have hlast : gain c (rest ++ ys).head? = gain c rest.head? := by
        cases rest with
        | nil => simp [gain, h]
        | cons _ _ => rfl
      rw [List.cons_append, gains_cons, gains_cons, ih, hlast, Nat.add_assoc]

/-- A selector that is cut off is a gain that is lost. -/
theorem gains_append_le (xs ys : List Char) : gains xs + gains ys ≤ gains (xs ++ ys) := by
  induction xs with
  | nil => exact Nat.le_of_eq (Nat.zero_add _)
  | cons c rest ih =>
      have hlast : gain c rest.head? ≤ gain c (rest ++ ys).head? := by
        cases rest with
        | nil => exact gain_none_le c _
        | cons _ _ => exact Nat.le_refl _
      rw [List.cons_append, gains_cons, gains_cons]
      omega

theorem gains_le_of_prefix (h : front <+: cs) : gains front ≤ gains cs := by
  obtain ⟨rest, rfl⟩ := h
  exact Nat.le_of_add_right_le (gains_append_le front rest)

theorem gains_le_of_suffix (h : back <:+ cs) : gains back ≤ gains cs := by
  obtain ⟨before, rfl⟩ := h
  exact Nat.le_of_add_left_le (gains_append_le before back)

theorem gains_ellipsis_append (cs : List Char) : gains (ellipsis ++ cs) = gains cs := by
  have hdot : ∀ behind, gain '.' behind = 0 := fun behind => by
    have hbase : ¬ inRanges emojiBaseRanges '.'.toNat = true := by decide +kernel
    rw [gain, if_neg (by decide), if_neg fun h => hbase h.2]
  simp only [ellipsis, List.cons_append, List.nil_append, gains_cons, hdot, Nat.zero_add]

/-! ## Shortened texts -/

/-- What a text is shortened to. -/
structure Shortens (s : String) (limit : Nat) (r : String) : Prop where
  /-- It is too wide by what its characters gain, at most. -/
  width_le : width r ≤ limit + gains r.toList
  /-- If no character of the text gains, it is not too wide. -/
  fits : gains s.toList = 0 → width r ≤ limit
  /-- A text that fits is left alone; in no columns nothing is left. -/
  kept : width s ≤ limit → r = if limit = 0 then "" else s
  /-- Of a text that does not fit a front part and an end part are left, with an ellipsis between
  them unless there is too little room; they do not overlap if the characters of the text gain less
  than four columns. -/
  parts : limit < width s → ∃ front dots back, r.toList = front ++ dots ++ back ∧
    front <+: s.toList ∧ back <:+ s.toList ∧
    (dots = ellipsis ∨ dots = [] ∧ limit < 5) ∧
    (gains s.toList < 4 → front.length + back.length ≤ s.length)

namespace Shortens

variable {s r : String}

theorem self (hlimit : limit ≠ 0) (h : width s ≤ limit) : Shortens s limit s where
  width_le := Nat.le_add_right_of_le h
  fits := fun _ => h
  kept := fun _ => (if_neg hlimit).symm
  parts := fun hlong => absurd h (Nat.not_le.mpr hlong)

theorem none (s : String) : Shortens s 0 "" where
  width_le := Nat.zero_le _
  fits := fun _ => Nat.le_refl 0
  kept := fun _ => rfl
  parts := fun _ => ⟨[], [], [], rfl, List.nil_prefix, List.nil_suffix, .inr ⟨rfl, by decide⟩,
    fun _ => Nat.zero_le _⟩

/-- Parts that take few enough columns will do. -/
theorem of_parts {dots : List Char} (hlong : limit < width s)
    (hr : r.toList = front ++ dots ++ back) (hfront : front <+: s.toList)
    (hback : back <:+ s.toList) (hdots : dots = ellipsis ∨ dots = [] ∧ limit < 5)
    (hcolumns : columns r.toList ≤ limit) (hgains : gains r.toList = gains front + gains back)
    (hapart : gains s.toList < 4 → front.length + back.length ≤ s.length) :
    Shortens s limit r where
  width_le := by
    have hwidth := Text.width_le r
    omega
  fits := fun hnone => by
    have hwidth := Text.width_le r
    have hfront' := gains_le_of_prefix hfront
    have hback' := gains_le_of_suffix hback
    omega
  kept := fun h => absurd h (Nat.not_le.mpr hlong)
  parts := fun _ => ⟨front, dots, back, hr, hfront, hback, hdots, hapart⟩

theorem of_front (hlong : limit < width s) (hsmall : limit < 5) (hfront : front <+: s.toList)
    (hcolumns : columns front ≤ limit) : Shortens s limit (String.ofList front) := by
  have hr : (String.ofList front).toList = front := String.toList_ofList
  have hparts : (String.ofList front).toList = front ++ [] ++ [] := by
    rw [hr, List.append_nil, List.append_nil]
  refine of_parts hlong hparts hfront List.nil_suffix (.inr ⟨rfl, hsmall⟩) ?_ ?_
    fun _ => hfront.length_le
  · rwa [hr]
  · rw [hr]
    rfl

theorem of_back (hlong : limit < width s) (hsmall : limit < 5) (hback : back <:+ s.toList)
    (hcolumns : columns back ≤ limit) : Shortens s limit (String.ofList back) := by
  have hr : (String.ofList back).toList = back := String.toList_ofList
  have hparts : (String.ofList back).toList = [] ++ [] ++ back := hr
  refine of_parts hlong hparts List.nil_prefix hback (.inr ⟨rfl, hsmall⟩) ?_ ?_ fun _ => ?_
  · rwa [hr]
  · rw [hr]
    exact (Nat.zero_add _).symm
  · rw [List.length_nil, Nat.zero_add]
    exact hback.length_le

/-- An ellipsis parts what is on both sides of it. -/
theorem of_both (hlong : limit < width s) (hfront : front <+: s.toList)
    (hback : back <:+ s.toList) (hcolumns : columns front + 3 + columns back ≤ limit)
    (hapart : gains s.toList < 4 → front.length + back.length ≤ s.length) :
    Shortens s limit (String.ofList (front ++ ellipsis ++ back)) := by
  have hr : (String.ofList (front ++ ellipsis ++ back)).toList = front ++ ellipsis ++ back :=
    String.toList_ofList
  have hdots : columns ellipsis = 3 := by decide +kernel
  refine of_parts hlong hr hfront hback (.inl rfl) ?_ ?_ hapart
  · rwa [hr, columns_append, columns_append, hdots]
  · have hdot : (ellipsis ++ back).head? ≠ some emojiSelector := by
      show some '.' ≠ some emojiSelector
      decide
    rw [hr, List.append_assoc, gains_append hdot, gains_ellipsis_append]

end Shortens

theorem shortens_truncateMiddle (s : String) (limit : Nat) :
    Shortens s limit (truncateMiddle s limit) := by
  unfold truncateMiddle
  split
  · next hnone => rw [hnone]; exact .none s
  · next hsome =>
      split
      · next hfits => exact .self hsome hfits
      · next hlong =>
          rw [Nat.not_le] at hlong
          split
          · next hsmall =>
              exact .of_front hlong hsmall (takeWidth_isPrefix limit _) (columns_takeWidth_le limit _)
          · have hfront := columns_takeWidth_le ((limit - 3) / 2) s.toList
            have hback := columns_takeWidthRight_le ((limit - 3) / 2) s.toList
            refine .of_both hlong (takeWidth_isPrefix _ _) (takeWidthRight_isSuffix _ _) (by omega)
              fun hfew => ?_
            -- a text that gains little takes more columns than its two parts
            have hwidth := width_le s
            exact length_add_length_le (takeWidth_isPrefix _ _) (takeWidthRight_isSuffix _ _) (by omega)

theorem shortens_truncatePath (s : String) (limit : Nat) :
    Shortens s limit (truncatePath s limit) := by
  unfold truncatePath
  split
  · next hnone => rw [hnone]; exact .none s
  · next hsome =>
      split
      · next hfits => exact .self hsome hfits
      · next hlong =>
          rw [Nat.not_le] at hlong
          have hback := takeWidthRight_isSuffix
          split
          · next hsmall =>
              exact .of_back hlong (by omega) (hback limit _) (columns_takeWidthRight_le limit _)
          · have hcolumns := columns_takeWidthRight_le (limit - 3) s.toList
            have hapart := (hback (limit - 3) s.toList).length_le
            refine .of_both hlong List.nil_prefix (hback _ _) ?_ fun _ => ?_
            · show 0 + 3 + _ ≤ _
              omega
            · rwa [List.length_nil, Nat.zero_add]

/-- **What shortening does**: a text that fits is left alone, and of any other two ends that do not
overlap are left, within the columns given, as long as its characters take no more in the text than
alone.  Otherwise the result is too wide by what its characters gain, at most, and the ends are
still apart if those of the text gain less than four columns. -/
theorem shortens_truncate (s : String) (limit : Nat) :
    Shortens s limit (truncateMiddle s limit) ∧ Shortens s limit (truncatePath s limit) :=
  ⟨shortens_truncateMiddle s limit, shortens_truncatePath s limit⟩

/-- Four hearts in their emoji form gain four columns: of their eight characters nine are left. -/
example :
    let s := String.ofList (List.replicate 4 ['❤', emojiSelector]).flatten
    gains s.toList = 4 ∧ s.length = 8 ∧ (truncateMiddle s 7).length = 9 + 3 := by
  decide +kernel

/-- Control characters are all kept, on both sides of the ellipsis. -/
theorem not_fits_controls :
    let s := String.ofList (List.replicate 8 '\x01')
    width s = 8 ∧ width (truncateMiddle s 5) = 19 ∧ width (truncatePath s 5) = 11 := by
  decide +kernel

end InstallerBrowser.Text
