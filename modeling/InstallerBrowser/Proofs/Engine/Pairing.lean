import InstallerBrowser.Engine.Process

/-!
# InstallerBrowser.Proofs.Engine.Pairing

Calls to a program, and the results they are given.

Nothing on the pipe says which call a line belongs to: a call is given what the first line says that
ends a call (`OutputLine.verdict?`), and no line behind that one is used up (`readReply_cases`).  So
the results of some calls are the first verdicts of all that the program puts out (`converse_eq`).
The result that the program puts out for a call is given to that call if no other line has ended a
call before it, and otherwise to one of the calls behind it, as many calls later as there were such
lines (`pairing_converse`).
-/

namespace InstallerBrowser

/-! ## Lines that end a call -/

namespace OutputLine

/-- The result of the call that a line ends, if it ends one. -/
def verdict? : OutputLine → Option (Except AppError String)
  | .garbled => some (.error (.storage .invalidText))
  | .text line => (EngineLine.payload? (Text.trim line)).map fun payload => .ok payload.render

/-- The payload of a line that is a result as the protocol writes one: an object. -/
def result? : OutputLine → Option Json
  | .garbled => none
  | .text line =>
    match Json.readObject (Text.trim line).toList with
    | .ok (members, _) =>
      match EngineLine.ofMembers? members with
      | some (.result payload) => some payload
      | _ => none
    | .error _ => none

variable {line : OutputLine} {payload : Json}

/-- A text that holds an object ends a call exactly if it is a result. -/
theorem verdict?_of_readObject {text : String} {read : List (String × Json) × List Char}
    (h : Json.readObject (Text.trim text).toList = .ok read) :
    (OutputLine.text text).verdict? =
      (OutputLine.text text).result?.map fun payload => .ok payload.render := by
  cases hsaid : EngineLine.ofMembers? read.1 with
  | none => simp [verdict?, result?, EngineLine.payload?, EngineLine.parse?, h, hsaid]
  | some said =>
      cases said <;> simp [verdict?, result?, EngineLine.payload?, EngineLine.parse?, h, hsaid]

theorem verdict?_of_result (h : line.result? = some payload) :
    line.verdict? = some (.ok payload.render) := by
  cases line with
  | garbled => cases h
  | text text =>
      cases hread : Json.readObject (Text.trim text).toList with
      | ok read =>
          rw [verdict?_of_readObject hread, h]
          rfl
      | error e =>
          rw [result?, hread] at h
          cases h

/-- Other than a result, a line ends a call if it is no text, or an array that says it is a
result. -/
theorem stray_cases {result : Except AppError String} (h : line.verdict? = some result)
    (hline : line.result? = none) :
    line = .garbled ∨ ∃ text items, line = .text text ∧
      Json.parse (Text.trim text) = .ok (.array items) := by
  cases line with
  | garbled => exact .inl rfl
  | text text =>
      refine .inr ⟨text, ?_⟩
      cases hread : Json.readObject (Text.trim text).toList with
      | ok read =>
          rw [verdict?_of_readObject hread, hline] at h
          cases h
      | error e =>
          simp only [verdict?, EngineLine.payload?, EngineLine.parse?, hread] at h
          cases hparse : Json.parse (Text.trim text) with
          | error _ =>
              rw [hparse] at h
              cases h
          | ok value =>
              rw [hparse] at h
              cases value with
              | array items => exact ⟨items, rfl, rfl⟩
              | _ => cases h

end OutputLine

/-- The results that are to be had from some lines. -/
def verdicts (lines : List OutputLine) : List (Except AppError String) :=
  lines.filterMap OutputLine.verdict?

@[simp] theorem verdicts_append (lines lines' : List OutputLine) :
    verdicts (lines ++ lines') = verdicts lines ++ verdicts lines' := List.filterMap_append

theorem verdicts_cons (line : OutputLine) (rest : List OutputLine) :
    verdicts (line :: rest) = line.verdict?.toList ++ verdicts rest := by
  rw [verdicts, List.filterMap_cons]
  cases line.verdict? <;> rfl

namespace EngineProcess

/-- A reading gives the first verdict, and uses up no line behind it. -/
theorem readReply_cases (lines : List OutputLine) :
    verdicts lines = [] ∨
      verdicts lines = (readReply lines).result :: verdicts (readReply lines).rest := by
  induction lines with
  | nil => exact .inl rfl
  | cons line rest ih =>
      rw [verdicts_cons]
      cases line with
      | garbled => exact .inr rfl
      | text line =>
          simp only [OutputLine.verdict?, readReply]
          by_cases hblank : Text.trim line = ""
          · -- A blank line says nothing.
            have hnone : EngineLine.payload? "" = none := rfl
            rw [hblank, hnone, if_pos rfl]
            exact ih
          · rw [if_neg hblank]
            cases EngineLine.payload? (Text.trim line) with
            | some payload => exact .inr rfl
            | none => exact ih

/-! ## Conversations -/

/-- What a program puts out for a call: any lines, and behind them a result. -/
structure Answer where
  others : List OutputLine
  line : OutputLine
  payload : Json
  line_eq : line.result? = some payload

/-- A line to a program, and what it puts out for it. -/
inductive Exchange where
  | call (call : EngineCall) (answer : Answer)
  | abort (others : List OutputLine)

namespace Exchange

/-- The line to the program. -/
def line : Exchange → String
  | .call c _ => c.render
  | .abort _ => abortLine

/-- What is put out besides the result. -/
def others : Exchange → List OutputLine
  | .call _ answer => answer.others
  | .abort others => others

/-- All that is put out. -/
def output : Exchange → List OutputLine
  | .call _ answer => answer.others ++ [answer.line]
  | .abort others => others

/-- The payload of the result. -/
def payload? : Exchange → Option String
  | .call _ answer => some answer.payload.render
  | .abort _ => none

end Exchange

/-- The payloads that a program puts out for the calls among some exchanges. -/
def payloads (xs : List Exchange) : List String := xs.filterMap Exchange.payload?

/-- All the results that are to be had from some exchanges. -/
def outcomes (xs : List Exchange) : List (Except AppError String) :=
  xs.flatMap fun x => verdicts x.output

/-- A program puts out what some exchanges say. -/
def Follows (answer : List String → List OutputLine) (heard : List String) : List Exchange → Prop
  | [] => True
  | x :: rest => answer (heard ++ [x.line]) = x.output ∧ Follows answer (heard ++ [x.line]) rest

/-- The exchanges whose lines a program reads before it closes its input. -/
def received (p : EngineProcess) (xs : List Exchange) : List Exchange :=
  match p.readsLeft with
  | none => xs
  | some n => xs.take n

/-- The exchanges whose lines it does not read. -/
def refused (p : EngineProcess) (xs : List Exchange) : List Exchange :=
  match p.readsLeft with
  | none => []
  | some n => xs.drop n

/-- The results of the calls of a conversation. -/
def converse (p : EngineProcess) : List Exchange → List (Except AppError String)
  | [] => []
  | .call c _ :: rest => (p.call c).2.2 :: (p.call c).1.converse rest
  | .abort _ :: rest => p.abort.converse rest

/-- How many lines besides the results end a call, up to the result of the call with a number. -/
def strays : List Exchange → Nat → Nat
  | [], _ => 0
  | .abort others :: rest, m => (verdicts others).length + strays rest m
  | .call _ answer :: _, 0 => (verdicts answer.others).length
  | .call _ answer :: rest, m + 1 => (verdicts answer.others).length + strays rest m

variable {p : EngineProcess} {x : Exchange} {xs : List Exchange}

/-- The program once it has read the line of an exchange. -/
def sent (p : EngineProcess) (x : Exchange) : EngineProcess :=
  { p with
    heard := p.heard ++ [x.line], unread := p.unread ++ x.output
    readsLeft := p.readsLeft.map (· - 1) }

theorem verdicts_sent (p : EngineProcess) (x : Exchange) :
    verdicts (p.sent x).unread = verdicts p.unread ++ verdicts x.output := verdicts_append _ _

theorem write_eq (hopen : p.readsLeft ≠ some 0) (h : p.answer (p.heard ++ [x.line]) = x.output) :
    p.write x.line = .ok (p.sent x) := by
  rw [write, if_neg hopen]
  simp only [h, sent]

theorem write_of_closed (h : p.readsLeft = some 0) (line : String) :
    p.write line = .error .brokenPipe := by
  rw [write, if_pos h]

theorem received_cons (x : Exchange) (xs : List Exchange) (hopen : p.readsLeft ≠ some 0) :
    p.received (x :: xs) = x :: (p.sent x).received xs ∧
      p.refused (x :: xs) = (p.sent x).refused xs := by
  simp only [received, refused, sent]
  cases h : p.readsLeft with
  | none => exact ⟨rfl, rfl⟩
  | some n =>
      cases n with
      | zero => exact absurd h hopen
      | succ n => exact ⟨rfl, rfl⟩

/-- A program that reads nothing gives no result. -/
theorem converse_of_closed (h : p.readsLeft = some 0) (xs : List Exchange) :
    p.converse xs =
      List.replicate (payloads xs).length (.error (.protocol (.writeFailed .brokenPipe))) := by
  induction xs with
  | nil => rfl
  | cons x xs ih =>
      cases x with
      | call c answer =>
          rw [converse, call, write_of_closed h]
          exact congrArg _ ih
      | abort others =>
          rw [converse, abort, write_of_closed h]
          exact ih

theorem received_of_closed (h : p.readsLeft = some 0) (xs : List Exchange) :
    p.received xs = [] ∧ p.refused xs = xs := by
  rw [received, refused, h]
  exact ⟨rfl, rfl⟩

theorem received_nil (p : EngineProcess) : p.received [] = [] ∧ p.refused [] = [] := by
  rw [received, refused]
  cases p.readsLeft with
  | none => exact ⟨rfl, rfl⟩
  | some n => exact ⟨List.take_nil, List.drop_nil⟩

/-- Of an exchange the strays are to be had first, and then the payload. -/
theorem verdicts_output (x : Exchange) :
    verdicts x.output = verdicts x.others ++ x.payload?.toList.map .ok := by
  cases x with
  | call c answer =>
      rw [Exchange.output, verdicts_append, verdicts_cons,
        OutputLine.verdict?_of_result answer.line_eq]
      rfl
  | abort others => exact (List.append_nil _).symm

/-- A call that is read is given the first result that is to be had. -/
theorem call_cases {c : EngineCall} {answer : Answer}
    (hwrite : p.write c.render = .ok (p.sent (.call c answer))) :
    verdicts p.unread ++ verdicts (Exchange.call c answer).output =
        (p.call c).2.2 :: verdicts (p.call c).1.unread ∧
      (p.call c).1 = { p.sent (.call c answer) with unread := (p.call c).1.unread } := by
  rw [call, hwrite]
  refine ⟨?_, rfl⟩
  rcases readReply_cases (p.sent (.call c answer)).unread with hnone | hsome
  · -- The result of the call itself is to be had.
    rw [verdicts_sent, verdicts_output] at hnone
    simp [Exchange.payload?] at hnone
  · rw [← verdicts_sent]
    exact hsome

/-- The results of the calls that a program reads are the first ones to be had from its output, and
the other calls fail. -/
theorem converse_eq (h : Follows p.answer p.heard (p.received xs)) :
    p.converse xs =
      (verdicts p.unread ++ outcomes (p.received xs)).take (payloads (p.received xs)).length ++
        List.replicate (payloads (p.refused xs)).length
          (.error (.protocol (.writeFailed .brokenPipe))) := by
  induction xs generalizing p with
  | nil =>
      rw [(received_nil p).1, (received_nil p).2]
      simp [converse, payloads]
  | cons x xs ih =>
      by_cases hclosed : p.readsLeft = some 0
      · obtain ⟨hreceived, hrefused⟩ := received_of_closed hclosed (x :: xs)
        rw [converse_of_closed hclosed, hreceived, hrefused]
        rfl
      · obtain ⟨hreceived, hrefused⟩ := received_cons x xs hclosed
        rw [hreceived] at h ⊢
        have hwrite := write_eq hclosed h.1
        rw [hrefused, outcomes, List.flatMap_cons, ← List.append_assoc]
        cases x with
        | abort others =>
            rw [converse, abort, show p.write abortLine = _ from hwrite, ← verdicts_sent]
            exact ih h.2
        | call c answer =>
            obtain ⟨hfirst, hnext⟩ := call_cases (c := c) hwrite
            rw [converse, hfirst]
            refine congrArg _ ?_
            rw [hnext]
            exact ih h.2

/-! ## Whose result a call is given -/

/-- The result for a call lies behind those of the calls before it and the strays. -/
theorem getElem?_outcomes {m : Nat} {payload : String} (h : (payloads xs)[m]? = some payload) :
    (outcomes xs)[m + strays xs m]? = some (.ok payload) := by
  induction xs generalizing m with
  | nil => cases h
  | cons x xs ih =>
      obtain ⟨behind, hstrays, hbehind⟩ : ∃ behind,
          strays (x :: xs) m = (verdicts x.others).length + behind ∧
            (x.payload?.toList.map Except.ok ++ outcomes xs)[m + behind]? =
              some (.ok payload) := by
        cases x with
        | abort others => exact ⟨strays xs m, rfl, ih h⟩
        | call c answer =>
            cases m with
            | zero =>
                cases h
                exact ⟨0, rfl, rfl⟩
            | succ m =>
                refine ⟨strays xs m, rfl, ?_⟩
                rw [Nat.add_right_comm]
                exact ih (m := m) h
      rw [outcomes, List.flatMap_cons, verdicts_output, List.append_assoc, hstrays,
        Nat.add_left_comm, List.getElem?_append_right (Nat.le_add_right _ _), Nat.add_sub_cancel_left]
      exact hbehind

/-- A result that is to be had is a stray, or was put out for a call. -/
theorem outcomes_cases {j : Nat} {result : Except AppError String}
    (h : (outcomes xs)[j]? = some result) :
    result ∈ verdicts (xs.flatMap Exchange.others) ∨
      ∃ m payload, (payloads xs)[m]? = some payload ∧ j = m + strays xs m ∧
        result = .ok payload := by
  induction xs generalizing j with
  | nil => cases h
  | cons x xs ih =>
      rw [outcomes, List.flatMap_cons, verdicts_output, List.append_assoc] at h
      rw [List.flatMap_cons, verdicts_append, List.mem_append]
      rcases Nat.lt_or_ge j (verdicts x.others).length with hj | hj
      · rw [List.getElem?_append_left hj] at h
        exact .inl (.inl (List.mem_of_getElem? h))
      · obtain ⟨offset, rfl⟩ := Nat.exists_eq_add_of_le hj
        rw [List.getElem?_append_right hj, Nat.add_sub_cancel_left] at h
        cases x with
        | abort others =>
            rcases ih h with hmem | ⟨m, payload, hm, rfl, hresult⟩
            · exact .inl (.inr hmem)
            · exact .inr ⟨m, payload, hm, Nat.add_left_comm _ _ _, hresult⟩
        | call c answer =>
            cases offset with
            | zero =>
                exact .inr ⟨0, answer.payload.render, rfl, (Nat.zero_add _).symm,
                  (Option.some.inj h).symm⟩
            | succ offset =>
                rcases ih h with hmem | ⟨m, payload, hm, rfl, hresult⟩
                · exact .inl (.inr hmem)
                · refine .inr ⟨m + 1, payload, hm, ?_, hresult⟩
                  rw [strays, Exchange.others]
                  omega

/-- Every call is given the payload that was put out for it, or an error. -/
def Paired (results : List (Except AppError String)) (payloads : List String) : Prop :=
  ∀ (m : Nat) (result : Except AppError String), results[m]? = some result →
    (∃ e, result = .error e) ∨ ∃ payload, payloads[m]? = some payload ∧ result = .ok payload

/-- How many lines besides the results end a call, up to the result of the call with a number, what
was unread before the conversation included. -/
def delay (p : EngineProcess) (xs : List Exchange) (m : Nat) : Nat :=
  (verdicts p.unread).length + strays (p.received xs) m

theorem error_of_garbled {lines : List OutputLine} {result : Except AppError String}
    (h : ∀ line ∈ lines, line = .garbled ∨ line.verdict? = none) (hmem : result ∈ verdicts lines) :
    result = .error (.storage .invalidText) := by
  obtain ⟨line, hline, hresult⟩ := List.mem_filterMap.mp hmem
  rcases h line hline with rfl | hnone
  · exact (Option.some.inj hresult).symm
  · cases hnone.symm.trans hresult

section Given

variable {j m : Nat} {result : Except AppError String} {text : String}

/-- A call that is read is given the result to be had that has its number. -/
theorem getElem?_converse (h : Follows p.answer p.heard (p.received xs))
    (hj : j < (payloads (p.received xs)).length)
    (hresult : (verdicts p.unread ++ outcomes (p.received xs))[j]? = some result) :
    (p.converse xs)[j]? = some result := by
  have htake : ((verdicts p.unread ++ outcomes (p.received xs)).take
      (payloads (p.received xs)).length)[j]? = some result := by
    rwa [List.getElem?_take_of_lt hj]
  rw [converse_eq h, List.getElem?_append_left (List.getElem?_eq_some_iff.mp htake).1]
  exact htake

theorem converse_cases (h : Follows p.answer p.heard (p.received xs))
    (hresult : (p.converse xs)[j]? = some result) :
    result = .error (.protocol (.writeFailed .brokenPipe)) ∨
      j < (payloads (p.received xs)).length ∧
        (verdicts p.unread ++ outcomes (p.received xs))[j]? = some result := by
  rw [converse_eq h, List.getElem?_append] at hresult
  split at hresult
  · rw [List.getElem?_take] at hresult
    split at hresult
    · next hj => exact .inr ⟨hj, hresult⟩
    · cases hresult
  · exact .inl (List.eq_of_mem_replicate (List.mem_of_getElem? hresult))

/-- The result for a call is given to the call that is as many calls behind it as other lines have
ended a call before. -/
theorem getElem?_converse_delay (h : Follows p.answer p.heard (p.received xs))
    (hm : (payloads (p.received xs))[m]? = some text)
    (hlt : m + p.delay xs m < (payloads (p.received xs)).length) :
    (p.converse xs)[m + p.delay xs m]? = some (.ok text) := by
  refine getElem?_converse h hlt ?_
  rw [delay, List.getElem?_append_right (by omega)]
  rw [show m + ((verdicts p.unread).length + strays (p.received xs) m) -
    (verdicts p.unread).length = m + strays (p.received xs) m by omega]
  exact getElem?_outcomes hm

/-- Where the lines besides the results are taken for none, every payload that is given is that of
an earlier call, or of the call itself. -/
theorem converse_cases_delay (h : Follows p.answer p.heard (p.received xs))
    (hothers : ∀ line ∈ p.unread ++ (p.received xs).flatMap Exchange.others,
      line = .garbled ∨ line.verdict? = none)
    (hresult : (p.converse xs)[j]? = some result) :
    (∃ e, result = .error e) ∨
      ∃ m text, (payloads (p.received xs))[m]? = some text ∧ j = m + p.delay xs m ∧
        j < (payloads (p.received xs)).length ∧ result = .ok text := by
  rw [List.forall_mem_append] at hothers
  rcases converse_cases h hresult with heq | ⟨hj, hgiven⟩
  · exact .inl ⟨_, heq⟩
  · rw [List.getElem?_append] at hgiven
    split at hgiven
    · exact .inl ⟨_, error_of_garbled hothers.1 (List.mem_of_getElem? hgiven)⟩
    · next hunread =>
        rcases outcomes_cases hgiven with hmem | ⟨m, text, hm, hposition, heq⟩
        · exact .inl ⟨_, error_of_garbled hothers.2 hmem⟩
        · refine .inr ⟨m, text, hm, ?_, hj, heq⟩
          rw [delay]
          omega

end Given

/-- **Whose result a call is given**: the calls that a program reads are given the results to be had
from its output in their order, and the other calls fail.  So the result for a call is given to the
call that is as many calls behind it as other lines have ended a call before.  Where the payloads
differ and the lines besides the results are taken for none, every call is given the payload of its
own or an error exactly if no result is given to a later call. -/
theorem pairing_converse (p : EngineProcess) (xs : List Exchange)
    (h : Follows p.answer p.heard (p.received xs)) :
    let texts := payloads (p.received xs)
    let results := p.converse xs
    results = (verdicts p.unread ++ outcomes (p.received xs)).take texts.length ++
        List.replicate (payloads (p.refused xs)).length
          (.error (.protocol (.writeFailed .brokenPipe))) ∧
      (∀ m text, texts[m]? = some text → m + p.delay xs m < texts.length →
        results[m + p.delay xs m]? = some (.ok text)) ∧
      (texts.Nodup →
        (∀ line ∈ p.unread ++ (p.received xs).flatMap Exchange.others,
          line = .garbled ∨ line.verdict? = none) →
        (Paired results texts ↔
          ∀ m < texts.length, p.delay xs m = 0 ∨ texts.length ≤ m + p.delay xs m)) := by
  intro texts results
  refine ⟨converse_eq h, fun m text hm hlt => getElem?_converse_delay h hm hlt,
    fun hnodup hothers => ⟨fun hpaired m hm => ?_, fun hdelay j result hresult => ?_⟩⟩
  · rcases Nat.lt_or_ge (m + p.delay xs m) texts.length with hlt | hge
    · -- The result of the call is given to another one, unless both are the same.
      have htext : texts[m]? = some texts[m] := List.getElem?_eq_getElem hm
      rcases hpaired _ _ (getElem?_converse_delay h htext hlt) with ⟨e, he⟩ | ⟨text, htext', heq⟩
      · cases he
      · cases heq
        have hsame := (List.getElem?_inj hm hnodup).mp (htext.trans htext'.symm)
        exact .inl (by omega)
    · exact .inr hge
  · rcases converse_cases_delay h hothers hresult with herror | ⟨m, text, hm, rfl, hlt, heq⟩
    · exact .inl herror
    · rcases hdelay m (Nat.lt_of_le_of_lt (Nat.le_add_right m _) hlt) with hzero | hge
      · rw [hzero, Nat.add_zero]
        exact .inr ⟨text, hm, heq⟩
      · exact absurd hlt (Nat.not_lt.mpr hge)

/-- The result of a first call. -/
def firstResult : OutputLine := .text "\x7b\"kind\":\"result\",\"payload\":1\x7d"

/-- The result of a second call. -/
def secondResult : OutputLine := .text "\x7b\"kind\":\"result\",\"payload\":2\x7d"

/-- A program that puts out another line in front of its first result, and only results then. -/
def straying (line : OutputLine) : EngineProcess where
  answer := fun heard => if heard.length = 1 then [line, firstResult] else [secondResult]

/-- Two calls to that program. -/
def strayed (line : OutputLine) : List Exchange :=
  [ .call .list ⟨[line], firstResult, .number (.natural 1), rfl⟩
  , .call .list ⟨[], secondResult, .number (.natural 2), rfl⟩ ]

/-- What these two calls are given. -/
def strayResults (line : OutputLine) : List (Except AppError String) :=
  (straying line).converse (strayed line)

/-- After a line that is no text the second call is given the result of the first. -/
theorem pairing_converse_garbled :
    let p := straying .garbled
    let xs := strayed .garbled
    Follows p.answer p.heard (p.received xs) ∧ p.delay xs 0 = 1 ∧
      (p.converse xs)[1]? = some (.ok "1") ∧
      ¬ Paired (p.converse xs) (payloads (p.received xs)) := by
  intro p xs
  have hfollows : Follows p.answer p.heard (p.received xs) := ⟨rfl, rfl, trivial⟩
  have hdelay : p.delay xs 0 = 1 := rfl
  have hothers : ∀ line ∈ p.unread ++ (p.received xs).flatMap Exchange.others,
      line = .garbled ∨ line.verdict? = none := fun line hmem =>
    .inl (List.mem_singleton.mp hmem)
  obtain ⟨_, hgiven, hpaired⟩ := pairing_converse p xs hfollows
  refine ⟨hfollows, hdelay, hgiven 0 "1" (by decide +kernel) (by decide +kernel), fun h => ?_⟩
  rcases (hpaired (by decide +kernel) hothers).mp h 0 (by decide +kernel) with hzero | hge
  · cases hdelay.symm.trans hzero
  · exact absurd hge (by decide +kernel)

/-- An array that says it is a result. -/
def arrayLine : OutputLine := .text "[\"result\",5]"

/-- The second of two calls is given the result of the first: after a line that is no text, and after
an array, which is no result in the form of the protocol. -/
theorem not_paired_stray :
    (Follows (straying .garbled).answer [] (strayed .garbled) ∧
        payloads (strayed .garbled) = ["1", "2"] ∧
        (strayResults .garbled).map Except.toOption = [none, some "1"] ∧
        ¬ Paired (strayResults .garbled) ["1", "2"]) ∧
      arrayLine.result? = none ∧
      Follows (straying arrayLine).answer [] (strayed arrayLine) ∧
      payloads (strayed arrayLine) = ["1", "2"] ∧
      (strayResults arrayLine).map Except.toOption = [some "5", some "1"] ∧
      ¬ Paired (strayResults arrayLine) ["1", "2"] := by
  have hlate : ∀ (results : List (Except AppError String)) (first : Option String),
      results.map Except.toOption = [first, some "1"] → ¬ Paired results ["1", "2"] := by
    intro results first hresults hpaired
    have hsecond : results[1]?.map Except.toOption = some (some "1") := by
      rw [← List.getElem?_map, hresults]
      rfl
    obtain ⟨result, hresult, hone⟩ := Option.map_eq_some_iff.mp hsecond
    rcases hpaired 1 result hresult with ⟨e, rfl⟩ | ⟨text, htext, rfl⟩
    · cases hone
    · cases htext
      exact absurd hone (by decide)
  have hgarbled : (strayResults .garbled).map Except.toOption = [none, some "1"] := by
    decide +kernel
  have harray : (strayResults arrayLine).map Except.toOption = [some "5", some "1"] := by
    decide +kernel
  exact ⟨⟨⟨rfl, rfl, trivial⟩, by decide +kernel, hgarbled, hlate _ _ hgarbled⟩,
    rfl, ⟨rfl, rfl, trivial⟩, by decide +kernel, harray, hlate _ _ harray⟩

end EngineProcess

end InstallerBrowser
