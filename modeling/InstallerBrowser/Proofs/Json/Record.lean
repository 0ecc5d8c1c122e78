import InstallerBrowser.Json.Decode
import InstallerBrowser.Json.Parser
import Mathlib.Data.List.Nodup

/-!
# InstallerBrowser.Proofs.Json.Record

What a record that is read from members holds.

The keys of an object that is read increase, so none occurs twice (`count_of_parse`).  A part of
a record that one field decides then holds what this field is given, by name or by place, and its
default where that is missing (`readNamed_get`, `readInOrder_get`); members that can be read one by
one can be read as a record (`exists_readNamed`).
-/

namespace InstallerBrowser.Json

/-! ## The keys of an object -/

section Keys

variable {α : Type} {members : List (String × α)}

/-- Members whose keys increase. -/
def Increasing (members : List (String × α)) : Prop :=
  members.Pairwise fun first second => first.1 < second.1

theorem mem_insertMember {key : String} {value : α} {member : String × α}
    (h : member ∈ insertMember key value members) : member = (key, value) ∨ member ∈ members := by
  induction members with
  | nil => simpa [insertMember] using h
  | cons first rest ih =>
      simp only [insertMember] at h
      split at h
      · simpa using h
      · split at h
        · rcases List.mem_cons.mp h with rfl | hrest
          · exact .inl rfl
          · exact .inr (List.mem_cons_of_mem _ hrest)
        · rcases List.mem_cons.mp h with rfl | hrest
          · exact .inr List.mem_cons_self
          · exact (ih hrest).imp_right (List.mem_cons_of_mem _)

theorem Increasing.insertMember (h : Increasing members) (key : String) (value : α) :
    Increasing (insertMember key value members) := by
  induction members with
  | nil => simp [Json.insertMember, Increasing]
  | cons first rest ih =>
      obtain ⟨hfirst, hrest⟩ := List.pairwise_cons.mp h
      simp only [Json.insertMember]
      split
      · next hlt =>
          refine List.pairwise_cons.mpr ⟨fun member hmem => ?_, h⟩
          rcases List.mem_cons.mp hmem with rfl | hmem
          · exact hlt
          · exact String.lt_trans hlt (hfirst member hmem)
      · next hlt =>
          split
          · next heq =>
              subst heq
              exact List.pairwise_cons.mpr ⟨hfirst, hrest⟩
          · next hne =>
              refine List.pairwise_cons.mpr ⟨fun member hmem => ?_, ih hrest⟩
              rcases mem_insertMember hmem with rfl | hmem
              · exact Std.lt_of_le_of_ne (String.not_lt.mp hlt) (Ne.symm hne)
              · exact hfirst member hmem

theorem increasing_ofMembers (members : List (String × α)) : Increasing (ofMembers members) := by
  have hfold : ∀ (members all : List (String × α)), Increasing all →
      Increasing (members.foldl (fun all member => insertMember member.1 member.2 all) all) := by
    intro members
    induction members with
    | nil => exact fun all h => h
    | cons member rest ih => exact fun all h => ih _ (h.insertMember member.1 member.2)
  exact hfold members [] List.Pairwise.nil

theorem Increasing.nodup (h : Increasing members) : (members.map Prod.fst).Nodup := by
  rw [List.Nodup, List.pairwise_map]
  exact h.imp fun {first second} hlt (heq : first.1 = second.1) =>
    String.lt_irrefl second.1 (heq ▸ hlt)

/-- The values that members give for a key. -/
def valuesOf (key : String) (members : List (String × α)) : List α :=
  (members.filter fun member => member.1 = key).map Prod.snd

variable {key : String}

theorem lookup_eq_head? : lookup key members = (valuesOf key members).head? := by
  induction members with
  | nil => rfl
  | cons member rest ih =>
      simp only [lookup, ih, valuesOf, List.filter_cons]
      by_cases heq : key = member.1
      · simp [heq]
      · simp [heq, Ne.symm heq]

theorem length_valuesOf : (valuesOf key members).length = (members.map Prod.fst).count key := by
  rw [valuesOf, List.length_map, List.count, List.countP_map, List.countP_eq_length_filter]
  congr 1

theorem lookup_eq_none_iff :
    lookup key members = none ↔ (members.map Prod.fst).count key = 0 := by
  rw [lookup_eq_head?, List.head?_eq_none_iff, ← length_valuesOf, List.length_eq_zero_iff]

theorem valuesOf_eq_nil_iff : valuesOf key members = [] ↔ lookup key members = none := by
  rw [lookup_eq_head?, List.head?_eq_none_iff]

theorem valuesOf_eq_singleton_iff {v : α} : valuesOf key members = [v] ↔
    lookup key members = some v ∧ (members.map Prod.fst).count key ≤ 1 := by
  rw [lookup_eq_head?, ← length_valuesOf]
  rcases valuesOf key members with _ | ⟨a, _ | ⟨b, rest⟩⟩ <;> simp

theorem mem_valuesOf {v : α} (h : (key, v) ∈ members) : v ∈ valuesOf key members :=
  List.mem_map.mpr ⟨(key, v), List.mem_filter.mpr ⟨h, by simp⟩, rfl⟩

end Keys

theorem andThen_eq_ok {α β : Type} {r : Read α} {next : α → List Char → Read β}
    {result : β × List Char} :
    r.andThen next = .ok result ↔ ∃ a rest, r = .ok (a, rest) ∧ next a rest = .ok result := by
  cases r with
  | error fault => simp [Read.andThen]
  | ok read =>
      obtain ⟨a, rest⟩ := read
      refine ⟨fun h => ⟨a, rest, rfl, h⟩, ?_⟩
      rintro ⟨_, _, hread, h⟩
      cases hread
      exact h

theorem readWord_eq_ok {α : Type} {value a : α} {word cs rest : List Char}
    (h : readWord value word cs = .ok (a, rest)) : a = value := by
  induction word generalizing cs with
  | nil =>
      cases h
      rfl
  | cons w word ih =>
      cases cs with
      | nil => cases h
      | cons c cs =>
          simp only [readWord] at h
          split at h
          · exact ih h
          · cases h

/-- No key of an object that is read occurs twice. -/
theorem nodup_of_readValue {depth : Nat} {cs rest : List Char} {members : List (String × Json)}
    (h : readValue depth cs = .ok (.object members, rest)) : (members.map Prod.fst).Nodup := by
  unfold readValue at h
  split at h
  · cases h
  · cases readWord_eq_ok h
  · cases readWord_eq_ok h
  · cases readWord_eq_ok h
  · obtain ⟨_, _, -, h⟩ := andThen_eq_ok.mp h
    cases h
  · obtain ⟨_, _, -, h⟩ := andThen_eq_ok.mp h
    cases h
  · split at h
    · cases h
    · obtain ⟨_, _, -, h⟩ := andThen_eq_ok.mp h
      cases h
  · split at h
    · cases h
    · obtain ⟨read, _, -, h⟩ := andThen_eq_ok.mp h
      cases h
      exact (increasing_ofMembers read).nodup
  · split at h
    · obtain ⟨_, _, -, h⟩ := andThen_eq_ok.mp h
      cases h
    · cases h

theorem count_of_parse {text : String} {members : List (String × Json)}
    (h : parse text = .ok (.object members)) (key : String) :
    (members.map Prod.fst).count key ≤ 1 := by
  unfold parse at h
  split at h
  · next value rest hread =>
      obtain ⟨_, _, hvalue, hend⟩ := andThen_eq_ok.mp hread
      obtain ⟨_, _, -, hend⟩ := andThen_eq_ok.mp hend
      cases hend
      cases h
      exact List.nodup_iff_count_le_one.mp (nodup_of_readValue hvalue) key
  · cases h

/-! ## Records -/

section Records

variable {σ α : Type} {fields : List (Field σ)} {members : List (String × Json)} {record read : σ}

theorem map_eq_ok {β : Type} {d : Decoded α} {f : α → β} {b : β} :
    d.map f = .ok b ↔ ∃ a, d = .ok a ∧ f a = b := by
  cases d <;> simp [Except.map]

/-- What a part of a record holds is decided by the field with a name: it holds the item that this
field is given, and stays the same where another field is read. -/
structure Holds (fields : List (Field σ)) (name : String) (item : Json → Decoded α)
    (get : σ → α) : Prop where
  own : ∀ field ∈ fields, field.name = name → ∀ v record read,
    field.read v record = .ok read → item v = .ok (get read)
  other : ∀ field ∈ fields, field.name ≠ name → ∀ v record read,
    field.read v record = .ok read → get read = get record

/-- What is held for a member: its item, or what was held before if there is none. -/
def Held (item : Json → Decoded α) (before after : α) : Option Json → Prop
  | none => after = before
  | some v => item v = .ok after

variable {name : String} {item : Json → Decoded α} {get : σ → α}

theorem Holds.tail {field : Field σ} (h : Holds (field :: fields) name item get) :
    Holds fields name item get where
  own := fun other hmem => h.own other (List.mem_cons_of_mem _ hmem)
  other := fun other hmem => h.other other (List.mem_cons_of_mem _ hmem)

theorem holds_nil : Holds ([] : List (Field σ)) name item get where
  own := fun _ hmem => absurd hmem List.not_mem_nil
  other := fun _ hmem => absurd hmem List.not_mem_nil

/-- A field that puts its item where the part is. -/
theorem Holds.cons_own (h : Holds fields name item get) (required : Bool) {put : α → σ → σ}
    (hput : ∀ a record, get (put a record) = a) :
    Holds (⟨name, required, fun v record => (item v).map fun a => put a record⟩ :: fields)
      name item get where
  own := by
    intro field hmem hname v record read hread
    rcases List.mem_cons.mp hmem with rfl | hmem
    · obtain ⟨a, ha, rfl⟩ := map_eq_ok.mp hread
      rw [ha, hput]
    · exact h.own field hmem hname v record read hread
  other := by
    intro field hmem hname v record read hread
    rcases List.mem_cons.mp hmem with rfl | hmem
    · exact absurd rfl hname
    · exact h.other field hmem hname v record read hread

/-- A field with another name that leaves the part alone. -/
theorem Holds.cons_other (h : Holds fields name item get) (required : Bool) {β : Type}
    {other : String} {otherItem : Json → Decoded β} {put : β → σ → σ} (hne : other ≠ name)
    (hput : ∀ b record, get (put b record) = get record) :
    Holds (⟨other, required, fun v record => (otherItem v).map fun b => put b record⟩ :: fields)
      name item get where
  own := by
    intro field hmem hname v record read hread
    rcases List.mem_cons.mp hmem with rfl | hmem
    · exact absurd hname hne
    · exact h.own field hmem hname v record read hread
  other := by
    intro field hmem hname v record read hread
    rcases List.mem_cons.mp hmem with rfl | hmem
    · obtain ⟨b, -, rfl⟩ := map_eq_ok.mp hread
      exact hput b record
    · exact h.other field hmem hname v record read hread

/-! ### By name -/

theorem readNamed_get (hholds : Holds fields name item get)
    (hfield : ∃ field ∈ fields, field.name = name)
    (hcount : (members.map Prod.fst).count name ≤ 1)
    (h : readNamed fields members record = .ok read) :
    Held item (get record) (get read) (lookup name members) := by
  induction members generalizing record with
  | nil =>
      cases h
      rfl
  | cons member rest ih =>
      obtain ⟨key, value⟩ := member
      simp only [List.map_cons, List.count_cons] at hcount
      simp only [readNamed] at h
      split at h
      · next field hfind =>
          have hmem := List.mem_of_find?_eq_some hfind
          have hname : field.name = key := by simpa using List.find?_some hfind
          cases hvalue : field.read value record with
          | error e =>
              rw [hvalue] at h
              cases h
          | ok next =>
              rw [hvalue] at h
              have hrest := ih (by omega) h
              by_cases heq : name = key
              · -- No further member has the key, so the item of this one stays.
                have hitem := hholds.own field hmem (hname.trans heq.symm) _ _ _ hvalue
                have hnone : lookup name rest = none := by
                  rw [lookup_eq_none_iff]
                  simp only [heq, beq_self_eq_true, if_true] at hcount ⊢
                  omega
                rw [hnone] at hrest
                rw [lookup, if_pos heq, Held, show get read = get next from hrest]
                exact hitem
              · have hget := hholds.other field hmem (fun hn => heq (hn.symm.trans hname)) _ _ _ hvalue
                rw [lookup, if_neg heq, ← hget]
                exact hrest
      · next hfind =>
          have hne : name ≠ key := by
            rintro rfl
            obtain ⟨field, hmem, hname⟩ := hfield
            have := List.find?_eq_none.mp hfind field hmem
            simp [hname] at this
          rw [lookup, if_neg hne]
          exact ih (by omega) h

/-- Members can be read as a record if each that belongs to a field can be read on its own. -/
theorem exists_readNamed (h : ∀ member ∈ members, ∀ field ∈ fields, field.name = member.1 →
      ∀ record, ∃ read, field.read member.2 record = .ok read) (record : σ) :
    ∃ read, readNamed fields members record = .ok read := by
  induction members generalizing record with
  | nil => exact ⟨record, rfl⟩
  | cons member rest ih =>
      obtain ⟨key, value⟩ := member
      have hrest := ih fun member hmem => h member (List.mem_cons_of_mem _ hmem)
      simp only [readNamed]
      split
      · next field hfind =>
          obtain ⟨next, hnext⟩ := h (key, value) List.mem_cons_self field
            (List.mem_of_find?_eq_some hfind) (by simpa using List.find?_some hfind) record
          obtain ⟨read, hread⟩ := hrest next
          exact ⟨read, by rw [hnext]; exact hread⟩
      · exact hrest record

theorem asRecord_object_eq_ok {title : String} :
    asRecord title fields record (.object members) = .ok read ↔
      readNamed fields members record = .ok read ∧ missingField? fields members = none := by
  rw [asRecord]
  cases readNamed fields members record with
  | error e => simp [bind, Except.bind]
  | ok next => cases missingField? fields members <;> simp [bind, Except.bind]

theorem missingField?_eq_none_iff : missingField? fields members = none ↔
    ∀ field ∈ fields, field.required = true → valuesOf field.name members ≠ [] := by
  rw [missingField?, Option.map_eq_none_iff, List.find?_eq_none]
  simp only [Bool.and_eq_true, not_and, Option.isNone_iff_eq_none, ← valuesOf_eq_nil_iff, ne_eq]

/-- Members that give a field one value, which can be read, or none if they need not. -/
inductive Admits (members : List (String × Json)) (field : Field σ) : Prop
  | given {v : Json} (hvalues : valuesOf field.name members = [v])
      (hread : ∀ record, ∃ read, field.read v record = .ok read)
  | missing (hvalues : valuesOf field.name members = []) (hrequired : field.required = false)

theorem Admits.count_le_one {field : Field σ} (h : Admits members field) :
    (members.map Prod.fst).count field.name ≤ 1 := by
  rw [← length_valuesOf]
  cases h with
  | given hvalues _ => simp [hvalues]
  | missing hvalues _ => simp [hvalues]

theorem exists_asRecord {title : String} (h : ∀ field ∈ fields, Admits members field) :
    ∃ read, asRecord title fields record (.object members) = .ok read := by
  have hmembers : ∀ member ∈ members, ∀ field ∈ fields, field.name = member.1 →
      ∀ record, ∃ read, field.read member.2 record = .ok read := by
    intro member hmem field hfield hname
    have hvalue := mem_valuesOf (show (field.name, member.2) ∈ members from hname ▸ hmem)
    cases h field hfield with
    | given hvalues hread =>
        rw [hvalues] at hvalue
        rw [List.mem_singleton.mp hvalue]
        exact hread
    | missing hvalues _ =>
        rw [hvalues] at hvalue
        cases hvalue
  have hneeded : ∀ field ∈ fields, field.required = true → valuesOf field.name members ≠ [] := by
    intro field hfield hrequired
    cases h field hfield with
    | given hvalues _ => simp [hvalues]
    | missing _ hoptional => simp [hoptional] at hrequired
  obtain ⟨read, hread⟩ := exists_readNamed hmembers record
  exact ⟨read, asRecord_object_eq_ok.mpr ⟨hread, missingField?_eq_none_iff.mpr hneeded⟩⟩

/-- What a record holds for a member that is given at most once. -/
theorem asRecord_get {title : String} (hholds : Holds fields name item get)
    (hfield : ∃ field ∈ fields, field.name = name)
    (hcount : (members.map Prod.fst).count name ≤ 1)
    (h : asRecord title fields record (.object members) = .ok read) :
    (∃ v, valuesOf name members = [v] ∧ item v = .ok (get read)) ∨
      valuesOf name members = [] ∧ get read = get record := by
  have hget := readNamed_get hholds hfield hcount (asRecord_object_eq_ok.mp h).1
  cases hlookup : lookup name members with
  | none =>
      rw [hlookup] at hget
      exact .inr ⟨valuesOf_eq_nil_iff.mpr hlookup, hget⟩
  | some v =>
      rw [hlookup] at hget
      exact .inl ⟨v, valuesOf_eq_singleton_iff.mpr ⟨hlookup, hcount⟩, hget⟩

/-- What a record holds for a required member that is given at most once. -/
theorem asRecord_get_needed {title : String} (hholds : Holds fields name item get)
    (hfield : ∃ field ∈ fields, field.name = name ∧ field.required = true)
    (hcount : (members.map Prod.fst).count name ≤ 1)
    (h : asRecord title fields record (.object members) = .ok read) :
    ∃ v, valuesOf name members = [v] ∧ item v = .ok (get read) := by
  obtain ⟨field, hmem, rfl, hrequired⟩ := hfield
  rcases asRecord_get hholds ⟨field, hmem, rfl⟩ hcount h with hgiven | ⟨hnil, -⟩
  · exact hgiven
  · have hneeded := missingField?_eq_none_iff.mp (asRecord_object_eq_ok.mp h).2
    exact absurd hnil (hneeded field hmem hrequired)

/-! ### By place -/

theorem readInOrder_nil {expected : String} {i : Nat}
    (h : readInOrder expected i fields [] record = .ok read) : read = record := by
  induction fields generalizing i with
  | nil =>
      cases h
      rfl
  | cons field fields ih =>
      simp only [readInOrder] at h
      split at h
      · cases h
      · exact ih h

theorem readInOrder_cons_eq_ok {expected : String} {i : Nat} {field : Field σ} {value : Json}
    {values : List Json} :
    readInOrder expected i (field :: fields) (value :: values) record = .ok read ↔
      ∃ next, field.read value record = .ok next ∧
        readInOrder expected (i + 1) fields values next = .ok read := by
  rw [readInOrder]
  cases field.read value record <;> simp [bind, Except.bind]

/-- Where no field has the name, the part stays the same. -/
theorem readInOrder_get_of_ne {expected : String} {i : Nat} {items : List Json}
    (hholds : Holds fields name item get) (hne : ∀ field ∈ fields, field.name ≠ name)
    (h : readInOrder expected i fields items record = .ok read) : get read = get record := by
  induction fields generalizing i items record with
  | nil =>
      cases h
      rfl
  | cons field fields ih =>
      cases items with
      | nil => rw [readInOrder_nil h]
      | cons value values =>
          obtain ⟨next, hnext, hrest⟩ := readInOrder_cons_eq_ok.mp h
          rw [List.forall_mem_cons] at hne
          rw [ih hholds.tail hne.2 hrest]
          exact hholds.other field List.mem_cons_self hne.1 _ _ _ hnext

theorem readInOrder_get {expected : String} {i place : Nat} {items : List Json}
    (hholds : Holds fields name item get) (hnodup : (fields.map (·.name)).Nodup)
    (hplace : (fields.map (·.name))[place]? = some name)
    (h : readInOrder expected i fields items record = .ok read) :
    Held item (get record) (get read) items[place]? := by
  induction fields generalizing i items record place with
  | nil => cases hplace
  | cons field fields ih =>
      rw [List.map_cons, List.nodup_cons] at hnodup
      cases items with
      | nil => rw [readInOrder_nil h, List.getElem?_nil, Held]
      | cons value values =>
          obtain ⟨next, hnext, hrest⟩ := readInOrder_cons_eq_ok.mp h
          cases place with
          | zero =>
              have hname : field.name = name := Option.some.inj hplace
              have hne : ∀ other ∈ fields, other.name ≠ name := fun other hmem heq =>
                hnodup.1 (List.mem_map.mpr ⟨other, hmem, heq.trans hname.symm⟩)
              rw [List.getElem?_cons_zero, Held, readInOrder_get_of_ne hholds.tail hne hrest]
              exact hholds.own field List.mem_cons_self hname _ _ _ hnext
          | succ place =>
              have hne : field.name ≠ name := fun heq =>
                hnodup.1 (heq ▸ List.mem_of_getElem? hplace)
              rw [List.getElem?_cons_succ, ← hholds.other field List.mem_cons_self hne _ _ _ hnext]
              exact ih hholds.tail hnodup.2 hplace hrest

theorem exists_readInOrder_of_asRecord {title : String} {items : List Json}
    (h : asRecord title fields record (.array items) = .ok read) :
    ∃ expected, readInOrder expected 0 fields items record = .ok read ∧
      items.length ≤ fields.length := by
  refine ⟨"struct " ++ title ++ " with " ++ toString fields.length ++ " element" ++
    (if fields.length = 1 then "" else "s"), ?_⟩
  simp only [asRecord, bind, Except.bind] at h
  split at h
  · cases h
  · next next hnext =>
      split at h
      · cases h
      · next hlength => exact ⟨by rw [hnext, h], Nat.le_of_not_lt hlength⟩

end Records

end InstallerBrowser.Json
