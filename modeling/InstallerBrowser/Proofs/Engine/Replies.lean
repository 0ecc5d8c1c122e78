import InstallerBrowser.Engine.Reply
import InstallerBrowser.Proofs.Json.Record

/-!
# InstallerBrowser.Proofs.Engine.Replies

How replies are classified.

All kinds of replies `Report` a failure in the same way, whatever else they hold, and what does not
fit the kind of the call is a fault of the protocol.  An extraction ends with an abort if its reply
`MarksAbort`: by the flag or, without one, by the word in the status (`classified`).
-/

namespace InstallerBrowser.Reply

open Json (asOption asBool asString asRecord lookup)

/-! ## Failures -/

/-- A reply reports a failure: it is an object whose `error` is neither null nor a blank text. -/
inductive Reports (value : Json) : String → Prop
  | text {message : String} (h : value.member? "error" = some (.string message))
      (hblank : Text.isBlankText message = false) : Reports value message
  | other {error : Json} (h : value.member? "error" = some error) (hnull : error ≠ .null)
      (htext : ∀ s, error ≠ .string s) : Reports value error.render

variable {value : Json} {raw message : String}

theorem failure?_eq_some_iff : failure? value = some message ↔ Reports value message := by
  constructor
  · intro h
    unfold failure? at h
    split at h
    · cases h
    · cases h
    · next s hs =>
        split at h
        · cases h
        · next hblank =>
            cases h
            exact .text hs (by simpa using hblank)
    · next error hnull htext herror =>
        cases h
        exact .other herror hnull htext
  · intro h
    cases h with
    | text hs hblank => simp [failure?, hs, hblank]
    | @other error herror hnull htext => cases error <;> simp_all [failure?]

theorem readReply_of_reports (hparse : Json.parse raw = .ok value) (h : Reports value message) :
    readReply raw = .error (.engine message) := by
  simp [readReply, hparse, failure?_eq_some_iff.mpr h]

theorem readReply_of_not_reports (hparse : Json.parse raw = .ok value)
    (h : ∀ message, ¬ Reports value message) : readReply raw = .ok value := by
  have hnone : failure? value = none := by
    cases hfailure : failure? value with
    | none => rfl
    | some message => exact absurd (failure?_eq_some_iff.mp hfailure) (h message)
  simp [readReply, hparse, hnone]

/-- A result that is no failure, or a fault of the protocol. -/
def OnlyProtocol {α : Type} (result : Except AppError α) : Prop :=
  ∀ e, result = .error e → ∃ fault, e = .protocol fault

theorem onlyProtocol_ok {α : Type} (a : α) : OnlyProtocol (.ok a) := by
  intro e h
  cases h

theorem onlyProtocol_error {α : Type} (fault : ProtocolFault) :
    OnlyProtocol (.error (.protocol fault) : Except AppError α) := by
  intro e h
  cases h
  exact ⟨fault, rfl⟩

theorem onlyProtocol_decoded {α : Type} (d : Json.Decoded α) : OnlyProtocol (decoded d) := by
  cases d with
  | ok a => exact onlyProtocol_ok a
  | error e => exact onlyProtocol_error _

/-! ## Aborts -/

/-- A text in which the letters of "abort" follow each other, each in capitals or not. -/
def SaysAbort (text : String) : Prop :=
  ∃ before word after, text.toList = before ++ word ++ after ∧
    word.map Char.toLower = ['a', 'b', 'o', 'r', 't']

theorem occursIn_iff {word cs : List Char} : occursIn word cs = true ↔ word <:+: cs := by
  induction cs with
  | nil => simp [occursIn]
  | cons c cs ih =>
      rw [occursIn, Bool.or_eq_true, List.isPrefixOf_iff_prefix, ih, List.infix_cons_iff]

theorem mentions_abortWord_iff {text : String} :
    mentions abortWord text = true ↔ SaysAbort text := by
  rw [mentions, occursIn_iff]
  constructor
  · rintro ⟨before, after, h⟩
    obtain ⟨front, after, htext, hfront, -⟩ := List.map_eq_append_iff.mp h.symm
    obtain ⟨before, word, hsplit, -, hword⟩ := List.map_eq_append_iff.mp hfront
    exact ⟨before, word, after, by rw [htext, hsplit], hword⟩
  · rintro ⟨before, word, after, htext, hword⟩
    refine ⟨before.map Char.toLower, after.map Char.toLower, ?_⟩
    rw [htext, List.map_append, List.map_append, hword]
    rfl

/-- A value that a reply holds: by name in an object, by its place in an array. -/
def field? (name : String) (place : Nat) : Json → Option Json
  | .object members => lookup name members
  | .array items => items[place]?
  | _ => none

/-- A reply to an extraction tells of an abort: by its flag or, where there is none, by its
status. -/
def MarksAbort (value : Json) : Prop :=
  field? "aborted" 1 value = some (.bool true) ∨
    (field? "aborted" 1 value = none ∨ field? "aborted" 1 value = some .null) ∧
      ∃ status, field? "status" 0 value = some (.string status) ∧ SaysAbort status

theorem holds_status : Json.Holds ExtractResponse.jsonFields "status" (asOption asString)
    ExtractResponse.status := by
  refine Json.Holds.cons_own ?_ false fun _ _ => rfl
  exact Json.Holds.cons_other Json.holds_nil false (by decide) fun _ _ => rfl

theorem holds_aborted : Json.Holds ExtractResponse.jsonFields "aborted" (asOption asBool)
    ExtractResponse.aborted := by
  refine Json.Holds.cons_other ?_ false (by decide) fun _ _ => rfl
  exact Json.Holds.cons_own Json.holds_nil false fun _ _ => rfl

/-- A response that is read holds the status and the flag of the reply, if it has them. -/
theorem held_of_response {response : ExtractResponse} (hparse : Json.parse raw = .ok value)
    (h : asRecord "ExtractResponse" ExtractResponse.jsonFields {} value = .ok response) :
    Json.Held (asOption asString) none response.status (field? "status" 0 value) ∧
      Json.Held (asOption asBool) none response.aborted (field? "aborted" 1 value) := by
  cases value with
  | object members =>
      have hcount := Json.count_of_parse hparse
      have hread := (Json.asRecord_object_eq_ok.mp h).1
      exact ⟨Json.readNamed_get holds_status ⟨_, List.mem_cons_self, rfl⟩ (hcount _) hread,
        Json.readNamed_get holds_aborted ⟨_, List.mem_cons_of_mem _ List.mem_cons_self, rfl⟩
          (hcount _) hread⟩
  | array items =>
      obtain ⟨expected, hread, -⟩ := Json.exists_readInOrder_of_asRecord h
      have hnodup : (ExtractResponse.jsonFields.map (·.name)).Nodup := by decide
      exact ⟨Json.readInOrder_get holds_status hnodup rfl hread,
        Json.readInOrder_get holds_aborted hnodup rfl hread⟩
  | _ => cases h

theorem held_status_iff {status : Option String} {given : Option Json}
    (h : Json.Held (asOption asString) none status given) (text : String) :
    status = some text ↔ given = some (.string text) := by
  cases given with
  | none =>
      cases h
      simp
  | some v => cases v <;> simp_all [Json.Held, asOption, asString, Except.map, eq_comm]

theorem held_aborted_iff {aborted : Option Bool} {given : Option Json}
    (h : Json.Held (asOption asBool) none aborted given) :
    (aborted = some true ↔ given = some (.bool true)) ∧
      (aborted = none ↔ given = none ∨ given = some .null) := by
  cases given with
  | none =>
      cases h
      simp
  | some v => cases v <;> simp_all [Json.Held, asOption, asBool, Except.map, eq_comm]

/-- The flag and the status that are held decide as those of the reply do. -/
theorem marksAbort_iff {status : Option String} {aborted : Option Bool}
    (hstatus : Json.Held (asOption asString) none status (field? "status" 0 value))
    (haborted : Json.Held (asOption asBool) none aborted (field? "aborted" 1 value)) :
    aborted.getD (mentions abortWord (status.getD "")) = true ↔ MarksAbort value := by
  have hsays : mentions abortWord (status.getD "") = true ↔
      ∃ text, field? "status" 0 value = some (.string text) ∧ SaysAbort text := by
    simp only [← held_status_iff hstatus]
    cases status with
    | none =>
        have hempty : mentions abortWord "" = false := by decide
        simp [hempty]
    | some text => simp [mentions_abortWord_iff]
  obtain ⟨htrue, hnone⟩ := held_aborted_iff haborted
  rw [MarksAbort, ← htrue, ← hnone, ← hsays]
  cases aborted with
  | none => simp
  | some flag => simp

/-! ## The kinds of replies -/

theorem aborted_of_parseExtract {outcome : ExtractOutcome} (hparse : Json.parse raw = .ok value)
    (h : parseExtract raw = .ok outcome) :
    (∃ status, outcome = .aborted status) ↔ MarksAbort value := by
  have hread : readReply raw = .ok value := by
    refine readReply_of_not_reports hparse fun message hreports => ?_
    rw [parseExtract, readReply_of_reports hparse hreports] at h
    cases h
  rw [parseExtract, hread] at h
  cases hresponse : asRecord "ExtractResponse" ExtractResponse.jsonFields {} value with
  | error e => simp [hresponse, decoded, bind, Except.bind] at h
  | ok response =>
      obtain ⟨hstatus, haborted⟩ := held_of_response hparse hresponse
      simp only [hresponse, decoded, bind, Except.bind] at h
      rw [← marksAbort_iff hstatus haborted]
      split at h
      · next hflag =>
          cases h
          simp [hflag]
      · next hflag =>
          cases h
          simp [hflag]

theorem onlyProtocol_of_not_reports (hparse : Json.parse raw = .ok value)
    (h : ∀ message, ¬ Reports value message) :
    OnlyProtocol (parseLoad raw) ∧ OnlyProtocol (parseList raw) ∧
      OnlyProtocol (parseExtract raw) ∧ OnlyProtocol (parseOptionsDiffer raw) := by
  have hread := readReply_of_not_reports hparse h
  refine ⟨?_, ?_, ?_, ?_⟩
  · rw [parseLoad, hread]
    exact onlyProtocol_decoded _
  · rw [parseList, hread]
    cases value with
    | array items => exact onlyProtocol_decoded _
    | _ => exact onlyProtocol_error _
  · rw [parseExtract, hread]
    simp only [bind, Except.bind]
    split
    · next e he =>
        obtain ⟨fault, rfl⟩ := onlyProtocol_decoded _ e he
        exact onlyProtocol_error fault
    · split
      · exact onlyProtocol_ok _
      · exact onlyProtocol_ok _
  · rw [parseOptionsDiffer, hread]
    simp only [bind, Except.bind]
    split
    · exact onlyProtocol_ok _
    · split
      · exact onlyProtocol_ok _
      · exact onlyProtocol_error _
    · exact onlyProtocol_error _

/-- **How replies are classified**: a reply that reports a failure is that failure for every kind of
call, and no other reply is one: what can be wrong with it is a fault of the protocol.  An
extraction whose reply is read ends with an abort exactly if the reply marks one. -/
theorem classified (raw : String) (value : Json) (h : Json.parse raw = .ok value) :
    (∀ message, Reports value message →
      parseLoad raw = .error (.engine message) ∧ parseList raw = .error (.engine message) ∧
        parseExtract raw = .error (.engine message) ∧
        parseOptionsDiffer raw = .error (.engine message)) ∧
      ((∀ message, ¬ Reports value message) →
        OnlyProtocol (parseLoad raw) ∧ OnlyProtocol (parseList raw) ∧
          OnlyProtocol (parseExtract raw) ∧ OnlyProtocol (parseOptionsDiffer raw)) ∧
      ∀ outcome, parseExtract raw = .ok outcome →
        ((∃ status, outcome = .aborted status) ↔ MarksAbort value) := by
  refine ⟨fun message hreports => ?_, onlyProtocol_of_not_reports h,
    fun outcome => aborted_of_parseExtract h⟩
  have hread := readReply_of_reports h hreports
  refine ⟨?_, ?_, ?_, ?_⟩
  · rw [parseLoad, hread]
    rfl
  · rw [parseList, hread]
    rfl
  · rw [parseExtract, hread]
    rfl
  · rw [parseOptionsDiffer, hread]
    rfl

/-- A reply whose failure is blank and whose flag is null, with the word in its status. -/
def unflaggedAbort : String :=
  "\x7b\"status\":\"User ABORTed it\",\"aborted\":null,\"error\":\" \"\x7d"

/-- That reply reports no failure, and is read as an abort. -/
theorem classified_unflaggedAbort : ∃ value, Json.parse unflaggedAbort = .ok value ∧
    (∀ message, ¬ Reports value message) ∧
    parseExtract unflaggedAbort = .ok (.aborted "User ABORTed it") ∧ MarksAbort value ∧
    OnlyProtocol (parseLoad unflaggedAbort) := by
  have hparse : Json.parse unflaggedAbort = .ok (.object
      [("aborted", .null), ("error", .string " "), ("status", .string "User ABORTed it")]) := rfl
  have hreports : ∀ message, ¬ Reports (.object
      [("aborted", .null), ("error", .string " "), ("status", .string "User ABORTed it")])
      message := by
    intro message h
    rw [← failure?_eq_some_iff] at h
    cases h
  have hextract : parseExtract unflaggedAbort = .ok (.aborted "User ABORTed it") := rfl
  obtain ⟨-, honly, hmarks⟩ := classified unflaggedAbort _ hparse
  exact ⟨_, hparse, hreports, hextract, (hmarks _ hextract).mp ⟨_, rfl⟩, (honly hreports).1⟩

end InstallerBrowser.Reply
