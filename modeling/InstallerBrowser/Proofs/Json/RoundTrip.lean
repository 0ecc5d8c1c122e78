import InstallerBrowser.Json.Parser
import InstallerBrowser.Json.Printer
import Mathlib.Tactic.SplitIfs

/-!
# InstallerBrowser.Proofs.Json.RoundTrip

What is written is read back.

A value `Fits` if its numbers are integers that are kept exactly and not too many arrays and objects
stand inside each other.  The compact text of such a value is read back as the value itself
(`parse_render`), but for the members of its objects: these are read in the order of their keys
(`sorted`).
-/

namespace InstallerBrowser

/-- A number that is an integer in the range that is kept exactly. -/
def JsonNumber.InRange : JsonNumber → Prop
  | .natural n => n < Nat.pow 2 64
  | .negative n => 1 ≤ n ∧ n ≤ Nat.pow 2 63
  | .real _ _ => False

namespace Json

/-- A value of numbers in range that holds at most `depth` arrays and objects inside each other. -/
inductive Fits : Nat → Json → Prop
  | null {depth : Nat} : Fits depth .null
  | bool {depth : Nat} (b : Bool) : Fits depth (.bool b)
  | number {depth : Nat} {n : JsonNumber} (h : n.InRange) : Fits depth (.number n)
  | string {depth : Nat} (s : String) : Fits depth (.string s)
  | array {depth : Nat} {items : List Json} (h : ∀ item ∈ items, Fits depth item) :
      Fits (depth + 1) (.array items)
  | object {depth : Nat} {members : List (String × Json)}
      (h : ∀ member ∈ members, Fits depth member.2) : Fits (depth + 1) (.object members)

/-! ## The order of members -/

mutual

/-- A value with the members of its objects in the order of their keys. -/
def sorted : Json → Json
  | .array items => .array (sortedItems items)
  | .object members => .object (ofMembers (sortedMembers members))
  | v => v

/-- Items with the members of their objects in order. -/
def sortedItems : List Json → List Json
  | [] => []
  | item :: rest => sorted item :: sortedItems rest

/-- Members with the members of their values in order; they themselves stay where they are. -/
def sortedMembers : List (String × Json) → List (String × Json)
  | [] => []
  | (key, value) :: rest => (key, sorted value) :: sortedMembers rest

end

@[simp] theorem sorted_null : sorted .null = .null := rfl
@[simp] theorem sorted_bool (b : Bool) : sorted (.bool b) = .bool b := rfl
@[simp] theorem sorted_number (n : JsonNumber) : sorted (.number n) = .number n := rfl
@[simp] theorem sorted_string (s : String) : sorted (.string s) = .string s := rfl

@[simp] theorem sorted_array (items : List Json) :
    sorted (.array items) = .array (items.map sorted) := by
  have hitems : ∀ items, sortedItems items = items.map sorted := by
    intro items
    induction items with
    | nil => rfl
    | cons item rest ih => rw [sortedItems, ih, List.map_cons]
  rw [sorted, hitems]

@[simp] theorem sorted_object (members : List (String × Json)) :
    sorted (.object members) =
      .object (ofMembers (members.map fun member => (member.1, member.2.sorted))) := by
  have hmembers : ∀ members,
      sortedMembers members = members.map fun member => (member.1, member.2.sorted) := by
    intro members
    induction members with
    | nil => rfl
    | cons member rest ih => rw [sortedMembers, ih, List.map_cons]
  rw [sorted, hmembers]

/-! ## Strings -/

/-- A control character is read from the two last digits of its escape. -/
theorem readUnicode_control {c : Char} (h : c.toNat < 32) (rest : List Char) :
    readUnicode ('0' :: '0' :: Nat.digitChar (c.toNat / 16) :: Nat.digitChar (c.toNat % 16) :: rest) =
      .ok (c, rest) := by
  have hzero : Text.hexValue? '0' = some 0 := by decide
  have hvalue : ((0 * 16 + 0) * 16 + c.toNat / 16) * 16 + c.toNat % 16 = c.toNat := by omega
  have hunit : readUnit ('0' :: '0' :: Nat.digitChar (c.toNat / 16) ::
      Nat.digitChar (c.toNat % 16) :: rest) = .ok (c.toNat, rest) := by
    simp only [readUnit, hzero, Text.hexValue?_digitChar (n := c.toNat / 16) (by omega),
      Text.hexValue?_digitChar (n := c.toNat % 16) (by omega), hvalue]
  have hlow : ¬ (0xDC00 ≤ c.toNat ∧ c.toNat ≤ 0xDFFF) := by omega
  have hplain : c.toNat < 0xD800 ∨ 0xDBFF < c.toNat := by omega
  simp only [readUnicode, hunit, Read.andThen, hlow, hplain, if_false, if_true, Char.ofNat_toNat]

/-- An escaped character is read as that character. -/
theorem readChars_escape (bound : Nat) (before rest : List Char) (c : Char) :
    readChars (bound + 1) before (escape c ++ rest) = readChars bound (c :: before) rest := by
  have hcode : ∀ n, c.toNat = n → Char.ofNat n = c := fun n hn => by rw [← hn, Char.ofNat_toNat]
  unfold escape
  split
  · next h => subst h; rfl
  split
  · next h => subst h; rfl
  split
  · next h => subst h; rfl
  split
  · next h => subst h; rfl
  split
  · next h => subst h; rfl
  split
  · next h => rw [← hcode 8 h]; rfl
  split
  · next h => rw [← hcode 12 h]; rfl
  split
  · next hlow =>
      have hread := readUnicode_control hlow rest
      simp [readChars, readEscape, hread, Read.andThen]
  · next hquote hslash _ _ _ _ _ hlow =>
      simp [readChars, hquote, hslash, hlow]

theorem readChars_escapeAll (cs before rest : List Char) {bound : Nat} (hbound : cs.length < bound) :
    readChars bound before (escapeAll cs ++ '"' :: rest) =
      .ok (String.ofList (before.reverse ++ cs), rest) := by
  induction cs generalizing before bound with
  | nil =>
      obtain ⟨bound, rfl⟩ : ∃ b, bound = b + 1 := ⟨bound - 1, by omega⟩
      simp [escapeAll, readChars]
  | cons c cs ih =>
      obtain ⟨bound, rfl⟩ : ∃ b, bound = b + 1 := ⟨bound - 1, by omega⟩
      have hcs : cs.length < bound := by simpa using hbound
      rw [escapeAll, List.flatMap_cons, List.append_assoc, readChars_escape, ← escapeAll, ih _ hcs]
      simp

theorem length_le_length_escapeAll (cs : List Char) : cs.length ≤ (escapeAll cs).length := by
  induction cs with
  | nil => simp
  | cons c cs ih =>
      have hpos : 1 ≤ (escape c).length := by
        unfold escape
        repeat' split
        all_goals simp
      simp only [escapeAll, List.flatMap_cons, List.length_append, List.length_cons] at ih ⊢
      omega

/-- A string is read back, whatever follows it. -/
theorem readString_escapeAll (s : String) (rest : List Char) :
    readString (escapeAll s.toList ++ '"' :: rest) = .ok (s, rest) := by
  have hlength := length_le_length_escapeAll s.toList
  rw [readString, readChars_escapeAll _ _ _ (by simp only [List.length_append]; omega)]
  simp

/-! ## Numbers -/

/-- What may stand behind a value: the end of the text, or what goes on or ends an array or an
object. -/
def Closed (rest : List Char) : Prop := ∀ c, rest.head? = some c → c = ',' ∨ c = ']' ∨ c = '}'

theorem closed_cons {c : Char} (h : c = ',' ∨ c = ']' ∨ c = '}') (rest : List Char) :
    Closed (c :: rest) := by
  intro d hd
  cases hd
  exact h

theorem closed_nil : Closed [] := by
  intro c hc
  cases hc

theorem le_ofDigitChars (ds : List Char) (n : Nat) : n ≤ Nat.ofDigitChars 10 ds n := by
  rw [Nat.ofDigitChars_eq_ofDigitChars_zero]
  have hpow : 1 * n ≤ 10 ^ ds.length * n := Nat.mul_le_mul_right n (Nat.one_le_pow _ _ (by omega))
  omega

/-- All of some digits are taken if the number they form stays below the limit. -/
theorem takeDigits_append (limit : Nat) (ds rest : List Char) (acc taken : Nat)
    (hds : ∀ c ∈ ds, c.isDigit = true) (hrest : ∀ c, rest.head? = some c → c.isDigit = false)
    (hlimit : Nat.ofDigitChars 10 ds acc ≤ limit) :
    takeDigits limit acc taken (ds ++ rest) =
      (Nat.ofDigitChars 10 ds acc, taken + ds.length, rest) := by
  induction ds generalizing acc taken with
  | nil =>
      cases rest with
      | nil => simp [takeDigits]
      | cons c rest => simp [takeDigits, hrest c rfl]
  | cons c ds ih =>
      have hacc : acc * 10 + digitValue c = 10 * acc + (c.toNat - '0'.toNat) := by
        rw [Nat.mul_comm]
        rfl
      rw [Nat.ofDigitChars_cons] at hlimit ⊢
      have hle := Nat.le_trans (le_ofDigitChars ds _) hlimit
      have hrest := ih (10 * acc + (c.toNat - '0'.toNat)) (taken + 1)
        (fun d hd => hds d (List.mem_cons_of_mem c hd)) hlimit
      simp only [List.cons_append, takeDigits, hacc, hds c List.mem_cons_self, hle, and_self,
        if_true, hrest, List.length_cons]
      congr 2
      omega

theorem head?_toDigits_ne_zero {n : Nat} (h : 0 < n) : (Nat.toDigits 10 n).head? ≠ some '0' := by
  induction n using Nat.strongRecOn with
  | _ n ih =>
      by_cases hn : n < 10
      · rw [Nat.toDigits_of_lt_base hn, List.head?_cons, ne_eq, Option.some.injEq,
          Nat.digitChar_eq_zero]
        omega
      · have hquot := ih (n / 10) (by omega) (by omega)
        rw [Nat.toDigits_of_base_le (by omega) (by omega), List.head?_append]
        cases hhead : (Nat.toDigits 10 (n / 10)).head? with
        | none => exact absurd (List.head?_eq_none_iff.mp hhead) Nat.toDigits_ne_nil
        | some d => simpa [hhead] using hquot

theorem exists_toDigits_eq (n : Nat) :
    ∃ d ds, Nat.toDigits 10 n = d :: ds ∧ d.isDigit = true := by
  cases hds : Nat.toDigits 10 n with
  | nil => exact absurd hds Nat.toDigits_ne_nil
  | cons d ds =>
      exact ⟨d, ds, rfl, Nat.isDigit_of_mem_toDigits (b := 10) (n := n) (by omega) (by omega)
        (by simp [hds])⟩

theorem isSeparator_of_isDigit {d : Char} (hd : d.isDigit = true) : isSeparator d = false := by
  cases hsep : isSeparator d with
  | false => rfl
  | true =>
      simp only [isSeparator, Bool.or_eq_true, beq_iff_eq] at hsep
      rcases hsep with ((rfl | rfl) | rfl) | rfl <;> cases hd

/-- Digits behind which nothing of a number follows are read as an integer. -/
theorem readNumber_toDigits {n : Nat} (isNegative : Bool) (rest : List Char) (hn : n < Nat.pow 2 64)
    (hrest : Closed rest) :
    readNumber isNegative (Nat.toDigits 10 n ++ rest) = .ok (exactInteger isNegative n, rest) := by
  have hdigit : ∀ c, rest.head? = some c → c.isDigit = false := by
    intro c hc
    rcases hrest c hc with rfl | rfl | rfl <;> decide
  have hafter : afterInteger isNegative n rest = .ok (exactInteger isNegative n, rest) := by
    cases rest with
    | nil => rfl
    | cons c rest => rcases hrest c rfl with rfl | rfl | rfl <;> rfl
  by_cases hzero : n = 0
  · subst hzero
    simp only [Nat.toDigits_zero, List.cons_append, List.nil_append, readNumber]
    cases rest with
    | nil => exact hafter
    | cons c rest => simpa [hdigit c rfl] using hafter
  · obtain ⟨d, ds, hds, hd⟩ := exists_toDigits_eq n
    have hd0 : d ≠ '0' := by
      have hhead := head?_toDigits_ne_zero (n := n) (by omega)
      rw [hds, List.head?_cons] at hhead
      simpa using hhead
    have hall : ∀ c ∈ d :: ds, c.isDigit = true := by
      rw [← hds]
      exact fun c hc => Nat.isDigit_of_mem_toDigits (by omega) (by omega) hc
    have hvalue : Nat.ofDigitChars 10 ds (digitValue d) = n := by
      have htotal := Nat.ofDigitChars_toDigits (b := 10) (n := n) (by omega) (by omega)
      rw [hds, Nat.ofDigitChars_cons] at htotal
      simpa [digitValue] using htotal
    have htake := takeDigits_append maxNatural ds rest (digitValue d) 1
      (fun c hc => hall c (List.mem_cons_of_mem d hc)) hdigit
      (by rw [hvalue, maxNatural]; exact Nat.le_sub_one_of_lt hn)
    rw [hvalue] at htake
    rw [hds, List.cons_append, readNumber]
    · rw [if_pos hd, htake]
      cases rest with
      | nil => exact hafter
      | cons c rest => simpa [hdigit c rfl] using hafter
    · exact fun h => hd0 (by simpa using h)

/-! ## Values -/

theorem write_natural (n : Nat) : write (.number (.natural n)) = Nat.toDigits 10 n := by
  rw [write, writeNumber, Nat.toString_eq_ofList_toDigits, String.toList_ofList]

theorem write_negative (n : Nat) : write (.number (.negative n)) = '-' :: Nat.toDigits 10 n := by
  rw [write, writeNumber, Nat.toString_eq_ofList_toDigits, String.toList_ofList]

variable {depth : Nat} {v : Json}

/-- A value starts with a character that is neither blank nor the end of an array. -/
theorem exists_write_eq (h : v.Fits depth) :
    ∃ c cs, write v = c :: cs ∧ isSeparator c = false ∧ c ≠ ']' := by
  cases h with
  | null => exact ⟨'n', _, rfl, by decide, by decide⟩
  | bool b =>
      cases b with
      | false => exact ⟨'f', _, rfl, by decide, by decide⟩
      | true => exact ⟨'t', _, rfl, by decide, by decide⟩
  | string s => exact ⟨'"', _, rfl, by decide, by decide⟩
  | array _ => exact ⟨'[', _, rfl, by decide, by decide⟩
  | object _ => exact ⟨'{', _, rfl, by decide, by decide⟩
  | @number _ n hn =>
      cases n with
      | negative n => exact ⟨'-', _, rfl, by decide, by decide⟩
      | real s x => exact hn.elim
      | natural n =>
          obtain ⟨d, ds, hds, hd⟩ := exists_toDigits_eq n
          refine ⟨d, ds, (write_natural n).trans hds, isSeparator_of_isDigit hd, ?_⟩
          rintro rfl
          cases hd

/-- A reader that reads a value from its text, whatever follows. -/
def Reads (reader : List Char → Read Json) (v : Json) : Prop :=
  ∀ rest, Closed rest → reader (write v ++ rest) = .ok (v.sorted, rest)

theorem skipBlank_cons {c : Char} (h : isSeparator c = false) (cs : List Char) :
    skipBlank (c :: cs) = c :: cs := by
  rw [skipBlank, List.dropWhile_cons_of_neg (by simp [h])]

theorem length_le_length_flatMap_cons {α : Type} (c : Char) (f : α → List Char) (xs : List α) :
    xs.length ≤ (xs.flatMap fun x => c :: f x).length := by
  induction xs with
  | nil => simp
  | cons x xs ih =>
      simp only [List.flatMap_cons, List.length_append, List.length_cons] at ih ⊢
      omega

theorem closed_flatMap_append {α : Type} {c : Char} (h : c = ']' ∨ c = '}') (f : α → List Char)
    (xs : List α) (rest : List Char) :
    Closed ((xs.flatMap fun x => ',' :: f x) ++ c :: rest) := by
  cases xs with
  | nil => exact closed_cons (.inr h) rest
  | cons x xs =>
      rw [List.flatMap_cons, List.cons_append, List.cons_append]
      exact closed_cons (.inl rfl) _

/-! ### Arrays -/

theorem writeItems_cons (item : Json) (items : List Json) :
    writeItems (item :: items) = write item ++ items.flatMap fun item => ',' :: write item := by
  induction items generalizing item with
  | nil => simp [writeItems]
  | cons next items ih => simp [writeItems, ih]

theorem nextItem_first {c : Char} (hsep : isSeparator c = false) (hc : c ≠ ']') (cs : List Char) :
    nextItem true (c :: cs) = .ok (true, c :: cs) := by
  simp [nextItem, skipBlank_cons hsep]

theorem nextItem_comma {c : Char} (hsep : isSeparator c = false) (hc : c ≠ ']') (cs : List Char) :
    nextItem false (',' :: c :: cs) = .ok (true, c :: cs) := by
  have hcomma : isSeparator ',' = false := by decide
  simp [nextItem, skipBlank_cons hcomma, skipBlank_cons hsep, hc]

theorem readItems_flatMap {reader : List Char → Read Json} {items : List Json}
    (hfits : ∀ item ∈ items, Fits depth item) (hreads : ∀ item ∈ items, Reads reader item)
    {bound : Nat} (hbound : items.length < bound) (before : List Json) (rest : List Char) :
    readItems reader bound false before
        ((items.flatMap fun item => ',' :: write item) ++ ']' :: rest) =
      .ok (before.reverse ++ items.map sorted, rest) := by
  induction items generalizing before bound with
  | nil =>
      obtain ⟨bound, rfl⟩ : ∃ b, bound = b + 1 := ⟨bound - 1, by omega⟩
      simp [readItems, nextItem, skipBlank, isSeparator, Read.andThen]
  | cons item items ih =>
      obtain ⟨bound, rfl⟩ : ∃ b, bound = b + 1 := ⟨bound - 1, by omega⟩
      rw [List.forall_mem_cons] at hfits hreads
      obtain ⟨c, cs, hwrite, hsep, hc⟩ := exists_write_eq hfits.1
      have hread := hreads.1 _ (closed_flatMap_append (.inl rfl) write items rest)
      have hrest := ih hfits.2 hreads.2 (Nat.lt_of_succ_lt_succ hbound) (item.sorted :: before)
      rw [hwrite, List.cons_append] at hread
      rw [List.flatMap_cons, hwrite, List.append_assoc, List.cons_append, List.cons_append,
        readItems, nextItem_comma hsep hc]
      simp only [Read.andThen, if_true, hread, hrest]
      simp

theorem readItems_writeItems {reader : List Char → Read Json} {items : List Json}
    (hfits : ∀ item ∈ items, Fits depth item) (hreads : ∀ item ∈ items, Reads reader item)
    (rest : List Char) :
    readItems reader ((writeItems items ++ ']' :: rest).length + 1) true []
        (writeItems items ++ ']' :: rest) =
      .ok (items.map sorted, rest) := by
  cases items with
  | nil => simp [writeItems, readItems, nextItem, skipBlank, isSeparator, Read.andThen]
  | cons item items =>
      rw [List.forall_mem_cons] at hfits hreads
      obtain ⟨c, cs, hwrite, hsep, hc⟩ := exists_write_eq hfits.1
      have hlength := length_le_length_flatMap_cons ',' write items
      have hread := hreads.1 _ (closed_flatMap_append (.inl rfl) write items rest)
      rw [hwrite, List.cons_append] at hread
      rw [writeItems_cons, hwrite, List.append_assoc, List.cons_append, readItems,
        nextItem_first hsep hc]
      simp only [Read.andThen, if_true, hread]
      rw [readItems_flatMap hfits.2 hreads.2
        (by simp only [List.length_cons, List.length_append]; omega)]
      simp

/-! ### Objects -/

/-- A member as it is written. -/
def writeMember (member : String × Json) : List Char := quote member.1 ++ ':' :: write member.2

theorem writeMembers_cons (member : String × Json) (members : List (String × Json)) :
    writeMembers (member :: members) =
      writeMember member ++ members.flatMap fun member => ',' :: writeMember member := by
  induction members generalizing member with
  | nil => simp [writeMembers, writeMember]
  | cons next members ih => simp [writeMembers, ih, writeMember]

theorem writeMember_append (member : String × Json) (rest : List Char) :
    writeMember member ++ rest =
      '"' :: (escapeAll member.1.toList ++ '"' :: ':' :: (write member.2 ++ rest)) := by
  simp [writeMember, quote]

theorem readMembers_flatMap {reader : List Char → Read Json} {members : List (String × Json)}
    (hreads : ∀ member ∈ members, Reads reader member.2) {bound : Nat}
    (hbound : members.length < bound) (before : List (String × Json)) (rest : List Char) :
    readMembers reader bound false before
        ((members.flatMap fun member => ',' :: writeMember member) ++ '}' :: rest) =
      .ok (before.reverse ++ members.map fun member => (member.1, member.2.sorted), rest) := by
  induction members generalizing before bound with
  | nil =>
      obtain ⟨bound, rfl⟩ : ∃ b, bound = b + 1 := ⟨bound - 1, by omega⟩
      simp [readMembers, nextMember, skipBlank, isSeparator, Read.andThen]
  | cons member members ih =>
      obtain ⟨bound, rfl⟩ : ∃ b, bound = b + 1 := ⟨bound - 1, by omega⟩
      rw [List.forall_mem_cons] at hreads
      have hread := hreads.1 _ (closed_flatMap_append (.inr rfl) writeMember members rest)
      have hrest := ih hreads.2 (Nat.lt_of_succ_lt_succ hbound)
        ((member.1, member.2.sorted) :: before)
      have hnext : ∀ cs, nextMember false (',' :: '"' :: cs) = .ok (true, cs) := fun _ => rfl
      have hcolon : ∀ cs, readColon (':' :: cs) = .ok ((), cs) := fun _ => rfl
      rw [List.flatMap_cons, List.append_assoc, List.cons_append, writeMember_append, readMembers,
        hnext]
      simp only [Read.andThen, if_true, readString_escapeAll, hcolon, hread, hrest]
      simp

theorem readMembers_writeMembers {reader : List Char → Read Json}
    {members : List (String × Json)} (hreads : ∀ member ∈ members, Reads reader member.2)
    (rest : List Char) :
    readMembers reader ((writeMembers members ++ '}' :: rest).length + 1) true []
        (writeMembers members ++ '}' :: rest) =
      .ok (members.map fun member => (member.1, member.2.sorted), rest) := by
  cases members with
  | nil => simp [writeMembers, readMembers, nextMember, skipBlank, isSeparator, Read.andThen]
  | cons member members =>
      rw [List.forall_mem_cons] at hreads
      have hlength := length_le_length_flatMap_cons ',' writeMember members
      have hread := hreads.1 _ (closed_flatMap_append (.inr rfl) writeMember members rest)
      have hnext : ∀ cs, nextMember true ('"' :: cs) = .ok (true, cs) := fun _ => rfl
      have hcolon : ∀ cs, readColon (':' :: cs) = .ok ((), cs) := fun _ => rfl
      rw [writeMembers_cons, List.append_assoc, writeMember_append, readMembers, hnext]
      simp only [Read.andThen, if_true, readString_escapeAll, hcolon, hread]
      rw [readMembers_flatMap hreads.2
        (by simp only [List.length_cons, List.length_append]; omega)]
      simp

/-! ### The round trip -/

theorem readValue_digit {d : Char} (hd : d.isDigit = true) (cs : List Char) :
    readValue depth (d :: cs) =
      (readNumber false (d :: cs)).andThen fun n rest => .ok (.number n, rest) := by
  unfold readValue
  rw [skipBlank_cons (isSeparator_of_isDigit hd)]
  split
  all_goals first | rfl | simp_all

/-- A value that fits is read from its text, and what follows is left. -/
theorem reads_readValue (h : v.Fits depth) : Reads (readValue depth) v := by
  induction h with
  | null =>
      intro rest _
      unfold readValue
      rfl
  | bool b =>
      intro rest _
      unfold readValue
      cases b <;> rfl
  | @number depth n hn =>
      intro rest hrest
      cases n with
      | natural n =>
          obtain ⟨d, ds, hds, hd⟩ := exists_toDigits_eq n
          have hread := readNumber_toDigits false rest hn hrest
          rw [hds, List.cons_append] at hread
          rw [write_natural, hds, List.cons_append, readValue_digit hd, hread]
          rfl
      | negative n =>
          obtain ⟨hpos, hle⟩ := hn
          have hlt : n < Nat.pow 2 64 := Nat.lt_of_le_of_lt hle (by decide)
          have hread := readNumber_toDigits true rest hlt hrest
          have hexact : exactInteger true n = .negative n := by
            rw [exactInteger, if_pos rfl, if_pos ⟨hpos, hle⟩]
          rw [write_negative]
          unfold readValue
          simp [skipBlank, isSeparator, hread, Read.andThen, hexact]
      | real s x => exact hn.elim
  | string s =>
      intro rest _
      unfold readValue
      simp [write, quote, skipBlank, isSeparator, readString_escapeAll, Read.andThen]
  | @array depth items h ih =>
      intro rest _
      have htext : write (.array items) ++ rest = '[' :: (writeItems items ++ ']' :: rest) := by
        simp [write]
      rw [htext]
      unfold readValue
      simp only [skipBlank_cons (show isSeparator '[' = false by decide),
        readItems_writeItems h ih rest, Read.andThen, sorted_array]
  | @object depth members h ih =>
      intro rest _
      have htext : write (.object members) ++ rest =
          '{' :: (writeMembers members ++ '}' :: rest) := by
        simp [write]
      rw [htext]
      unfold readValue
      simp only [skipBlank_cons (show isSeparator '{' = false by decide),
        readMembers_writeMembers ih rest, Read.andThen, sorted_object]

/-- The text of a value that fits is read back as that value, with its members in order. -/
theorem parse_render (h : v.Fits maxDepth) : parse v.render = .ok v.sorted := by
  have hread := reads_readValue h [] closed_nil
  rw [List.append_nil] at hread
  simp [parse, readText, render, hread, Read.andThen, readEnd, skipBlank]

/-! ## Control characters -/

/-- Characters among which is no control character of ASCII. -/
def Printable (cs : List Char) : Prop := ∀ c ∈ cs, 32 ≤ c.toNat

theorem printable_append {xs ys : List Char} :
    Printable (xs ++ ys) ↔ Printable xs ∧ Printable ys := by
  simp [Printable, or_imp, forall_and]

theorem printable_cons {c : Char} {cs : List Char} :
    Printable (c :: cs) ↔ 32 ≤ c.toNat ∧ Printable cs := by
  simp [Printable]

theorem printable_flatMap {α : Type} {f : α → List Char} {xs : List α}
    (h : ∀ x ∈ xs, Printable (f x)) : Printable (xs.flatMap f) := by
  intro c hc
  obtain ⟨x, hx, hcx⟩ := List.mem_flatMap.mp hc
  exact h x hx c hcx

theorem printable_escape (c : Char) : Printable (escape c) := by
  have hdigit : ∀ n < 16, 32 ≤ (Nat.digitChar n).toNat := by decide
  have hfirst : c.toNat < 32 → 32 ≤ (Nat.digitChar (c.toNat / 16)).toNat :=
    fun hlow => hdigit _ (by omega)
  have hlast := hdigit (c.toNat % 16) (by omega)
  unfold escape
  split_ifs <;> simp_all [Printable]

theorem printable_quote (s : String) : Printable (quote s) := by
  rw [quote, printable_append, printable_cons]
  exact ⟨⟨by decide, printable_flatMap fun c _ => printable_escape c⟩, by simp [Printable]⟩

theorem printable_toDigits (n : Nat) : Printable (Nat.toDigits 10 n) := by
  intro c hc
  have hdigit := Nat.isDigit_of_mem_toDigits (by omega) (by omega) hc
  rw [Char.isDigit, Bool.and_eq_true, decide_eq_true_eq, decide_eq_true_eq] at hdigit
  have hle : ('0' : Char).toNat ≤ c.toNat := hdigit.1
  exact Nat.le_trans (by decide) hle

/-- The text of a value that fits is one line, without any control character of ASCII. -/
theorem printable_write (h : v.Fits depth) : Printable (write v) := by
  have hcomma : 32 ≤ ','.toNat := by decide
  induction h with
  | null => simp [Printable, write]
  | bool b => cases b <;> simp [Printable, write]
  | @number depth n hn =>
      cases n with
      | natural n => simpa [write_natural] using printable_toDigits n
      | negative n => simpa [write_negative, printable_cons] using printable_toDigits n
      | real s x => exact hn.elim
  | string s => exact printable_quote s
  | @array depth items h ih =>
      have hitems : Printable (writeItems items) := by
        cases items with
        | nil => simp [Printable, writeItems]
        | cons item items =>
            rw [List.forall_mem_cons] at ih
            rw [writeItems_cons, printable_append]
            exact ⟨ih.1, printable_flatMap fun item hmem =>
              printable_cons.mpr ⟨hcomma, ih.2 item hmem⟩⟩
      have hend : Printable [']'] := by simp [Printable]
      rw [write, printable_append, printable_cons]
      exact ⟨⟨by decide, hitems⟩, hend⟩
  | @object depth members h ih =>
      have hmember : ∀ member : String × Json, Printable (write member.2) →
          Printable (writeMember member) := by
        intro member hvalue
        rw [writeMember, printable_append, printable_cons]
        exact ⟨printable_quote member.1, by decide, hvalue⟩
      have hmembers : Printable (writeMembers members) := by
        cases members with
        | nil => simp [Printable, writeMembers]
        | cons member members =>
            rw [List.forall_mem_cons] at ih
            rw [writeMembers_cons, printable_append]
            exact ⟨hmember member ih.1, printable_flatMap fun member hmem =>
              printable_cons.mpr ⟨hcomma, hmember member (ih.2 member hmem)⟩⟩
      have hend : Printable ['}'] := by simp [Printable]
      rw [write, printable_append, printable_cons]
      exact ⟨⟨by decide, hmembers⟩, hend⟩

end Json

end InstallerBrowser
