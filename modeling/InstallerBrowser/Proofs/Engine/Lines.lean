import InstallerBrowser.Engine.Process
import InstallerBrowser.Proofs.Json.Record
import Mathlib.Algebra.Order.Round
import Mathlib.Data.Rat.Floor
import Mathlib.Tactic.FieldSimp
import Mathlib.Tactic.Ring

/-!
# InstallerBrowser.Proofs.Engine.Lines

What lines of the protocol are.

A line gives its kind and the values of that kind: as an object, whose members are judged as they
are written (`InObject`), or in order as an array (`InArray`).  These are the texts that are read,
and what is read from them is what they say (`parse?_eq_some_iff`).
-/

namespace InstallerBrowser

/-! ## Shares of one hundred -/

/-- The number that is written. -/
def JsonNumber.toRat : JsonNumber → ℚ
  | .natural n => n
  | .negative n => -n
  | .real isNegative x =>
    (if isNegative then -1 else 1) * (x.mantissa * (2 : ℚ) ^ x.exponent)

theorem Decimal.Magnitude.ratio_eq (x : Magnitude) :
    (x.ratio.1 : ℚ) / x.ratio.2 = x.mantissa * (2 : ℚ) ^ x.exponent := by
  obtain ⟨mantissa, exponent⟩ := x
  cases exponent with
  | ofNat n => simp [ratio]
  | negSucc n =>
      simp [ratio, zpow_negSucc, div_eq_mul_inv]

theorem Decimal.Magnitude.roundHalfUp_eq (x : Magnitude) :
    (x.roundHalfUp : ℤ) = round (x.mantissa * (2 : ℚ) ^ x.exponent) := by
  have hpos : (x.ratio.2 : ℚ) ≠ 0 := by simp [ratio]
  rw [round_eq, ← x.ratio_eq]
  have hhalf : (x.ratio.1 : ℚ) / x.ratio.2 + 1 / 2 =
      ((2 * x.ratio.1 + x.ratio.2 : ℕ) : ℚ) / ((2 * x.ratio.2 : ℕ) : ℚ) := by
    push_cast
    field_simp
  rw [hhalf, Rat.floor_natCast_div_natCast]
  rfl

namespace EngineLine

/-- A number, rounded and brought between 0 and 100. -/
def IsShare (share : Nat) (n : JsonNumber) : Prop :=
  (share : ℤ) = max 0 (min 100 (round n.toRat))

theorem isShare_iff {share : Nat} {n : JsonNumber} : IsShare share n ↔ percentOf n = share := by
  have hpercent : (percentOf n : ℤ) = max 0 (min 100 (round n.toRat)) := by
    cases n with
    | natural n =>
        have hround : round (n : ℚ) = n := round_natCast n
        rw [percentOf, JsonNumber.toRat, hround]
        omega
    | negative n =>
        have hround : round (-(n : ℚ)) = -n := by exact_mod_cast round_intCast (-(n : ℤ))
        rw [percentOf, JsonNumber.toRat, hround]
        omega
    | real isNegative x =>
        have hsize : (0 : ℚ) ≤ x.mantissa * (2 : ℚ) ^ x.exponent :=
          mul_nonneg (Nat.cast_nonneg _) (zpow_nonneg (by norm_num) _)
        cases isNegative with
        | false =>
            simp only [percentOf, JsonNumber.toRat, Bool.false_eq_true, if_false, one_mul]
            rw [← x.roundHalfUp_eq]
            omega
        | true =>
            have hround : round (-1 * (x.mantissa * (2 : ℚ) ^ x.exponent)) ≤ 0 := by
              rw [round_eq, ← Int.lt_add_one_iff, Int.floor_lt]
              push_cast
              linarith
            simp only [percentOf, JsonNumber.toRat, if_true]
            omega
  rw [IsShare, ← hpercent]
  omega

theorem ofPercent_percentOf {n : JsonNumber} :
    EngineNotice.ofPercent (percentOf n) = .progress (percentOf n) := by
  have hle : percentOf n ≤ 100 := by
    cases n with
    | real isNegative x => cases isNegative <;> simp [percentOf]
    | _ => simp [percentOf]
  rw [EngineNotice.ofPercent, Nat.min_eq_left hle]

/-! ## Objects -/

open Json (asRecord asString lookup valuesOf Holds)

/-- A key has a value: it is given once, or never where the value is its default. -/
def GivenOr (members : List (String × Json)) (key : String) (default v : Json) : Prop :=
  valuesOf key members = [v] ∨ valuesOf key members = [] ∧ v = default

theorem GivenOr.unique {members : List (String × Json)} {key : String} {default v w : Json}
    (hv : GivenOr members key default v) (hw : GivenOr members key default w) : v = w := by
  rcases hv with hv | ⟨hv, rfl⟩ <;> rcases hw with hw | ⟨hw, rfl⟩ <;> simp_all

/-- What members say, as they are written: the kind is given once, and each of its values at most
once.  The level of a message may be missing, and so may the payload of a result; other members do
not matter. -/
inductive InObject (members : List (String × Json)) : EngineLine → Prop
  | status {text : String} (hkind : valuesOf "kind" members = [.string "status"])
      (htext : valuesOf "text" members = [.string text]) :
      InObject members (.notice (.status text))
  | progress {n : JsonNumber} {share : Nat}
      (hkind : valuesOf "kind" members = [.string "progress"])
      (hpercent : valuesOf "percent" members = [.number n]) (hshare : IsShare share n) :
      InObject members (.notice (.progress share))
  | log {level text : String} (hkind : valuesOf "kind" members = [.string "log"])
      (hlevel : GivenOr members "level" (.string "") (.string level))
      (htext : valuesOf "text" members = [.string text]) :
      InObject members (.notice (.log (LogLevel.parse level) text))
  | result {payload : Json} (hkind : valuesOf "kind" members = [.string "result"])
      (hpayload : GivenOr members "payload" .null payload) : InObject members (.result payload)

variable {members : List (String × Json)} {line : EngineLine} {v : Json}

theorem countKey_eq (key : String) : countKey key members = (members.map Prod.fst).count key := by
  rw [countKey, List.count, List.countP_map]
  rfl

theorem asString_eq_ok {s : String} : asString v = .ok s ↔ v = .string s := by
  cases v <;> simp [asString]

theorem asNumber_eq_ok {n : JsonNumber} : asNumber v = .ok n ↔ v = .number n := by
  cases v <;> simp [asNumber]

theorem Kind.ofName?_eq_some_iff {name : String} {kind : Kind} :
    Kind.ofName? name = some kind ↔ name = kind.name := by
  constructor
  · intro h
    have := List.find?_some h
    simpa using Eq.symm (by simpa using this)
  · rintro rfl
    cases kind <;> decide

theorem ofContent?_eq_some_iff {kind : Kind} {content : Json} :
    ofContent? kind content = some line ↔
      ∃ c, asRecord "" kind.fields {} content = .ok c ∧ kind.line c = line := by
  rw [ofContent?]
  cases asRecord "" kind.fields {} content <;> simp

/-! ### What a kind holds -/

theorem holds_status_text : Holds Kind.status.fields "text" asString Content.text :=
  Holds.cons_own Json.holds_nil true fun _ _ => rfl

theorem holds_percent : Holds Kind.progress.fields "percent" asNumber Content.percent :=
  Holds.cons_own Json.holds_nil true fun _ _ => rfl

theorem holds_level : Holds Kind.log.fields "level" asString Content.level := by
  refine Holds.cons_own ?_ false fun _ _ => rfl
  exact Holds.cons_other Json.holds_nil true (by decide) fun _ _ => rfl

theorem holds_log_text : Holds Kind.log.fields "text" asString Content.text := by
  refine Holds.cons_other ?_ false (by decide) fun _ _ => rfl
  exact Holds.cons_own Json.holds_nil true fun _ _ => rfl

theorem holds_payload : Holds Kind.result.fields "payload" .ok Content.payload :=
  Holds.cons_own Json.holds_nil false fun _ _ => rfl


section Content

variable {c : Content}

/-- What a content that is read from members for a kind tells of them. -/
def Matches (kind : Kind) (members : List (String × Json)) (c : Content) : Prop :=
  match kind with
  | .status => valuesOf "text" members = [.string c.text]
  | .progress => valuesOf "percent" members = [.number c.percent]
  | .log =>
    GivenOr members "level" (.string "") (.string c.level) ∧
      valuesOf "text" members = [.string c.text]
  | .result => GivenOr members "payload" .null c.payload

theorem matches_of_asRecord {kind : Kind}
    (hcount : ∀ key ∈ kind.fields.map (·.name), (members.map Prod.fst).count key ≤ 1)
    (h : asRecord "" kind.fields {} (.object members) = .ok c) : Matches kind members c := by
  cases kind with
  | status =>
      obtain ⟨v, hvalues, hv⟩ := Json.asRecord_get_needed holds_status_text
        ⟨_, List.mem_cons_self, rfl, rfl⟩ (hcount _ (by decide)) h
      rw [asString_eq_ok.mp hv] at hvalues
      exact hvalues
  | progress =>
      obtain ⟨v, hvalues, hv⟩ := Json.asRecord_get_needed holds_percent
        ⟨_, List.mem_cons_self, rfl, rfl⟩ (hcount _ (by decide)) h
      rw [asNumber_eq_ok.mp hv] at hvalues
      exact hvalues
  | log =>
      obtain ⟨v, hvalues, hv⟩ := Json.asRecord_get_needed holds_log_text
        ⟨_, List.mem_cons_of_mem _ List.mem_cons_self, rfl, rfl⟩ (hcount _ (by decide)) h
      rw [asString_eq_ok.mp hv] at hvalues
      refine ⟨?_, hvalues⟩
      rcases Json.asRecord_get holds_level ⟨_, List.mem_cons_self, rfl⟩ (hcount _ (by decide)) h
        with ⟨w, hlevel, hw⟩ | ⟨hlevel, hdefault⟩
      · rw [asString_eq_ok.mp hw] at hlevel
        exact .inl hlevel
      · exact .inr ⟨hlevel, congrArg Json.string hdefault⟩
  | result =>
      rcases Json.asRecord_get holds_payload ⟨_, List.mem_cons_self, rfl⟩ (hcount _ (by decide)) h
        with ⟨v, hvalues, hv⟩ | hnone
      · cases hv
        exact .inl hvalues
      · exact .inr hnone

theorem admits_of_matches {kind : Kind} (h : Matches kind members c) :
    ∀ field ∈ kind.fields, Json.Admits members field := by
  cases kind with
  | status => exact List.forall_mem_singleton.mpr (.given h fun _ => ⟨_, rfl⟩)
  | progress => exact List.forall_mem_singleton.mpr (.given h fun _ => ⟨_, rfl⟩)
  | log =>
      obtain ⟨hlevel, htext⟩ := h
      refine List.forall_mem_cons.mpr ⟨?_, List.forall_mem_singleton.mpr ?_⟩
      · rcases hlevel with hlevel | ⟨hlevel, -⟩
        · exact .given hlevel fun _ => ⟨_, rfl⟩
        · exact .missing hlevel rfl
      · exact .given htext fun _ => ⟨_, rfl⟩
  | result =>
      refine List.forall_mem_singleton.mpr ?_
      rcases h with h | ⟨h, -⟩
      · exact .given h fun _ => ⟨_, rfl⟩
      · exact .missing h rfl

/-- Two contents that tell of the same members make the same line. -/
theorem line_eq_of_matches {kind : Kind} {c' : Content} (h : Matches kind members c)
    (h' : Matches kind members c') : kind.line c = kind.line c' := by
  cases kind with
  | status =>
      have htext : c.text = c'.text := by simpa using h.symm.trans h'
      rw [Kind.line, Kind.line, htext]
  | progress =>
      have hpercent : c.percent = c'.percent := by simpa using h.symm.trans h'
      rw [Kind.line, Kind.line, hpercent]
  | log =>
      have hlevel : c.level = c'.level := by simpa using h.1.unique h'.1
      have htext : c.text = c'.text := by simpa using h.2.symm.trans h'.2
      rw [Kind.line, Kind.line, hlevel, htext]
  | result => rw [Kind.line, Kind.line, GivenOr.unique h h']

/-- What members tell for a kind is what is read from them. -/
theorem ofContent?_object_eq_some_iff {kind : Kind} :
    (∀ key ∈ kind.fields.map (·.name), (members.map Prod.fst).count key ≤ 1) ∧
        ofContent? kind (.object members) = some line ↔
      ∃ c, Matches kind members c ∧ kind.line c = line := by
  rw [ofContent?_eq_some_iff]
  constructor
  · rintro ⟨hcount, c, hc, hline⟩
    exact ⟨c, matches_of_asRecord hcount hc, hline⟩
  · rintro ⟨c, hmatches, rfl⟩
    have hadmits := admits_of_matches hmatches
    have hcount : ∀ key ∈ kind.fields.map (·.name), (members.map Prod.fst).count key ≤ 1 := by
      intro key hkey
      obtain ⟨field, hfield, rfl⟩ := List.mem_map.mp hkey
      exact (hadmits field hfield).count_le_one
    obtain ⟨c', hc'⟩ := Json.exists_asRecord hadmits
    exact ⟨hcount, c', hc', line_eq_of_matches (matches_of_asRecord hcount hc') hmatches⟩

/-- What members say for a kind is what an object says. -/
theorem inObject_iff : InObject members line ↔
    ∃ kind : Kind, valuesOf kindKey members = [.string kind.name] ∧
      ∃ c, Matches kind members c ∧ kind.line c = line := by
  constructor
  · intro h
    cases h with
    | @status text hkind htext => exact ⟨.status, hkind, { text }, htext, rfl⟩
    | @progress n share hkind hpercent hshare =>
        refine ⟨.progress, hkind, { percent := n }, hpercent, ?_⟩
        rw [Kind.line, ofPercent_percentOf, isShare_iff.mp hshare]
    | @log level text hkind hlevel htext =>
        exact ⟨.log, hkind, { level, text }, ⟨hlevel, htext⟩, rfl⟩
    | @result payload hkind hpayload => exact ⟨.result, hkind, { payload }, hpayload, rfl⟩
  · rintro ⟨kind, hkind, c, hmatches, rfl⟩
    cases kind with
    | status => exact .status hkind hmatches
    | progress =>
        rw [Kind.line, ofPercent_percentOf]
        exact .progress hkind hmatches (isShare_iff.mpr rfl)
    | log => exact .log hkind hmatches.1 hmatches.2
    | result => exact .result hkind hmatches

end Content

theorem ofMembers?_eq_some_iff : ofMembers? members = some line ↔ InObject members line := by
  simp only [inObject_iff, ← ofContent?_object_eq_some_iff, Json.valuesOf_eq_singleton_iff,
    ← countKey_eq]
  constructor
  · intro h
    unfold ofMembers? at h
    split at h
    · next name hkind =>
        split at h
        · cases h
        · next kind hname =>
            cases Kind.ofName?_eq_some_iff.mp hname
            split at h
            · next hcount =>
                simp only [List.all_cons, Bool.and_eq_true, decide_eq_true_eq,
                  List.all_eq_true] at hcount
                exact ⟨kind, ⟨hkind, hcount.1⟩, hcount.2, h⟩
            · cases h
    · cases h
  · rintro ⟨kind, ⟨hkind, hone⟩, hcount, h⟩
    have hall : ((kindKey :: kind.fields.map (·.name)).all fun key =>
        decide (countKey key members ≤ 1)) = true := by
      simpa only [List.all_cons, Bool.and_eq_true, decide_eq_true_eq, List.all_eq_true] using
        ⟨hone, hcount⟩
    simp only [ofMembers?, hkind, Kind.ofName?_eq_some_iff.mpr rfl, hall, if_true, h]

/-! ## Arrays -/

/-- What the items of an array say: the kind comes first, and its values follow in order. -/
inductive InArray : List Json → EngineLine → Prop
  | status {text : String} :
      InArray [.string "status", .string text] (.notice (.status text))
  | progress {n : JsonNumber} {share : Nat} (hshare : IsShare share n) :
      InArray [.string "progress", .number n] (.notice (.progress share))
  | log {level text : String} :
      InArray [.string "log", .string level, .string text]
        (.notice (.log (LogLevel.parse level) text))
  | bareResult : InArray [.string "result"] (.result .null)
  | result {payload : Json} : InArray [.string "result", payload] (.result payload)

theorem inArray_of_ofContent? {kind : Kind} {values : List Json}
    (h : ofContent? kind (.array values) = some line) :
    InArray (.string kind.name :: values) line := by
  obtain ⟨c, hc, rfl⟩ := ofContent?_eq_some_iff.mp h
  obtain ⟨expected, hread, hlength⟩ := Json.exists_readInOrder_of_asRecord hc
  cases kind with
  | status =>
      match values, hread, hlength with
      | [.string text], hread, _ =>
          cases hread
          exact .status
  | progress =>
      match values, hread, hlength with
      | [.number n], hread, _ =>
          cases hread
          rw [Kind.line, ofPercent_percentOf]
          exact .progress (isShare_iff.mpr rfl)
  | log =>
      match values, hread, hlength with
      | [.string level, .string text], hread, _ =>
          cases hread
          exact .log
  | result =>
      match values, hread, hlength with
      | [], hread, _ =>
          cases hread
          exact .bareResult
      | [payload], hread, _ =>
          cases hread
          exact .result

theorem ofItems?_eq_some_iff {items : List Json} :
    ofItems? items = some line ↔ InArray items line := by
  constructor
  · intro h
    unfold ofItems? at h
    split at h
    · next name values =>
        split at h
        · cases h
        · next kind hname =>
            cases Kind.ofName?_eq_some_iff.mp hname
            exact inArray_of_ofContent? h
    · cases h
  · intro h
    cases h with
    | @progress n share hshare =>
        rw [← isShare_iff.mp hshare, ← ofPercent_percentOf]
        rfl
    | _ => rfl

/-! ## Texts -/

/-- A text conforms to the protocol, and says a line: it holds one value, an object or an array,
and the value says the line. -/
inductive Conforms (text : String) : EngineLine → Prop
  | object {members : List (String × Json)} {rest : List Char} {line : EngineLine}
      (hread : Json.readObject text.toList = .ok (members, rest)) (hline : InObject members line) :
      Conforms text line
  | array {items : List Json} {line : EngineLine} (hparse : Json.parse text = .ok (.array items))
      (hline : InArray items line) : Conforms text line

theorem parse_of_readObject {text : String} {rest : List Char}
    (h : Json.readObject text.toList = .ok (members, rest)) :
    Json.parse text = .ok (.object (Json.ofMembers members)) := by
  unfold Json.readObject at h
  split at h
  · next cs hcs =>
      obtain ⟨read, behind, hread, h⟩ := Json.andThen_eq_ok.mp h
      obtain ⟨_, rest, hend, h⟩ := Json.andThen_eq_ok.mp h
      cases h
      have hvalue : Json.readValue Json.maxDepth text.toList =
          .ok (.object (Json.ofMembers members), behind) := by
        simp only [Json.readValue, hcs]
        exact Json.andThen_eq_ok.mpr ⟨members, behind, hread, rfl⟩
      have htext : Json.readText text.toList = .ok (.object (Json.ofMembers members), rest) :=
        Json.andThen_eq_ok.mpr ⟨_, behind, hvalue, Json.andThen_eq_ok.mpr ⟨(), rest, hend, rfl⟩⟩
      rw [Json.parse, htext]
  · cases h

/-- What a text says, if it is read at all, is what it says by the protocol. -/
theorem parse?_eq_some_iff {text : String} : parse? text = some line ↔ Conforms text line := by
  constructor
  · intro h
    unfold parse? at h
    split at h
    · next members rest hread => exact .object hread (ofMembers?_eq_some_iff.mp h)
    · split at h
      · next items hparse => exact .array hparse (ofItems?_eq_some_iff.mp h)
      · cases h
  · intro h
    cases h with
    | object hread hline => simp only [parse?, hread, ofMembers?_eq_some_iff.mpr hline]
    | @array items _ hparse hline =>
        have hobject : ∃ e, Json.readObject text.toList = .error e := by
          cases hread : Json.readObject text.toList with
          | error e => exact ⟨e, rfl⟩
          | ok read => cases hparse.symm.trans (parse_of_readObject hread)
        obtain ⟨e, he⟩ := hobject
        simp only [parse?, he, hparse, ofItems?_eq_some_iff.mpr hline]

end EngineLine

end InstallerBrowser
