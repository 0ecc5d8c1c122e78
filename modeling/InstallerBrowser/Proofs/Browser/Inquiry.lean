import InstallerBrowser.Proofs.Browser.Answers

/-!
# InstallerBrowser.Proofs.Browser.Inquiry

What the engine was asked on the options, and what shows.

Beside a run an `Inquiry` keeps what passes between the browser and the engine since the last load
that was started: whether the options were changed, the questions on them, and the answers, in
their order.  `Coherent` ties it to what the browser holds.  While a question is under way the
options may move on, but then the question that has to follow it is noted as pending, and the tick
that handles the answer asks it at once (`Coherent.asked`).  So once nothing is pending or under way
the last answer is the one on the live options (`drift_run`).
-/

namespace InstallerBrowser

/-! ## Inquiries -/

/-- What passed on the options since the last load that was started. -/
structure Inquiry where
  /-- Whether the options were changed. -/
  changed : Bool := false
  /-- The options on which questions were sent, oldest first. -/
  questions : List Options := []
  /-- The answers that were given, in the order of their questions. -/
  answers : List (Option Bool) := []
deriving Repr, DecidableEq

namespace Inquiry

/-- A load begins a new inquiry, and a question goes into the current one. -/
def noteCall (n : Inquiry) : EngineCall → Inquiry
  | .load _ _ => {}
  | .optionsDiffer o => { n with questions := n.questions ++ [o] }
  | .list | .extract _ => n

/-- The inquiry when one browser has gone over into another. -/
def after (n : Inquiry) (b c : Browser) : Inquiry :=
  (b.newCalls c).foldl noteCall
    { n with changed := n.changed || decide (c.options.live ≠ b.options.live) }

/-- The last question was on some options, and its answer was given. -/
def Settled (n : Inquiry) (o : Options) (differ : Bool) : Prop :=
  ∃ questions answers, n.questions = questions ++ [o] ∧ n.answers = answers ++ [some differ] ∧
    questions.length = answers.length

end Inquiry

namespace Browser

variable {b b' c c' : Browser} {event : Event} {n : Inquiry}

/-- The inquiry after an event. -/
def note (b : Browser) (n : Inquiry) (event : Event) : Inquiry :=
  let n := n.after b (b.step event)
  match b.answered? event with
  | some result => { n with answers := n.answers ++ [readAnswer result] }
  | none => n

/-- The inquiry after a run. -/
def inquiry (b : Browser) (n : Inquiry) : List Event → Inquiry
  | [] => n
  | event :: rest => (b.step event).inquiry (b.note n event) rest

/-- Whether every reply of a run to a question on the options can be read. -/
def answersRead (b : Browser) : List Event → Bool
  | [] => true
  | event :: rest =>
    ((b.answered? event).all fun result => (readAnswer result).isSome) &&
      (b.step event).answersRead rest

/-! ## What an inquiry says -/

/-- How an inquiry and what the browser holds go together. -/
inductive Coherent (b : Browser) (n : Inquiry) : Prop
  -- No load was started.
  | untracked : b.session.inFlight ≠ some .optionsDiffer → b.driftCheckPending = false →
      b.options.lastLoaded = none → n.questions = [] → n.answers = [] → Coherent b n
  -- Nothing was changed since the load.
  | current : b.session.inFlight ≠ some .optionsDiffer → b.driftCheckPending = false →
      b.options.lastLoaded = some b.options.live → b.options.reloadNeeded = false →
      n.changed = false → n.questions = [] → n.answers = [] → Coherent b n
  -- A question is under way; its answer may lie among the events of the worker.
  | asking {questions o answers} : b.session.inFlight = some .optionsDiffer →
      b.driftCheckPending = true ∨ b.options.live = o → b.options.needsDriftCheck = true →
      n.questions = questions ++ [o] →
      n.answers = answers ++ answersAmong b.session.worker.events →
      questions.length = answers.length → Coherent b n
  -- The last question was on the live options, and its answer was kept.
  | settled : b.session.inFlight ≠ some .optionsDiffer → b.driftCheckPending = false →
      b.options.needsDriftCheck = true → n.Settled b.options.live b.options.reloadNeeded →
      Coherent b n

namespace Coherent

theorem congr (h : Coherent b n)
    (hslot : c.session.inFlight = some .optionsDiffer ↔ b.session.inFlight = some .optionsDiffer)
    (hpending : c.driftCheckPending = b.driftCheckPending) (hoptions : c.options = b.options)
    (hwaiting : answersAmong c.session.worker.events = answersAmong b.session.worker.events) :
    Coherent c n := by
  cases h with
  | untracked hfree hpending' hload hquestions hanswers =>
      exact .untracked (mt hslot.mp hfree) (hpending.trans hpending') (hoptions ▸ hload) hquestions
        hanswers
  | current hfree hpending' hload hneeded hchanged hquestions hanswers =>
      exact .current (mt hslot.mp hfree) (hpending.trans hpending') (hoptions ▸ hload)
        (hoptions ▸ hneeded) hchanged hquestions hanswers
  | asking hbusy hlive hneeds hquestions hanswers hlength =>
      exact .asking (hslot.mpr hbusy) (by rwa [hpending, hoptions]) (hoptions ▸ hneeds) hquestions
        (hwaiting ▸ hanswers) hlength
  | settled hfree hpending' hneeds hsettled =>
      exact .settled (mt hslot.mp hfree) (hpending.trans hpending') (hoptions ▸ hneeds)
        (hoptions ▸ hsettled)

theorem alike (h : Coherent b n) (halike : Alike b c) : Coherent c n :=
  h.congr (by rw [halike.inFlight]) halike.pending halike.options (by rw [halike.worker])

/-- While no question is under way, every question was answered. -/
theorem length_eq (h : Coherent b n) (hfree : b.session.inFlight ≠ some .optionsDiffer) :
    n.questions.length = n.answers.length := by
  cases h with
  | untracked _ _ _ hquestions hanswers | current _ _ _ _ _ hquestions hanswers =>
      rw [hquestions, hanswers]
      rfl
  | asking hbusy _ _ _ _ _ => exact absurd hbusy hfree
  | settled _ _ _ hsettled =>
      obtain ⟨questions, answers, hquestions, hanswers, hlength⟩ := hsettled
      rw [hquestions, hanswers, List.length_append, List.length_append, hlength]
      rfl

end Coherent

/-! ## Effects -/

theorem noteCall_foldl {calls : List EngineCall}
    (h : ∀ call ∈ calls, call.kind = .list ∨ call.kind = .extract) (n : Inquiry) :
    calls.foldl Inquiry.noteCall n = n := by
  induction calls with
  | nil => rfl
  | cons call rest ih =>
      rw [List.forall_mem_cons] at h
      have hcall : n.noteCall call = n := by
        cases call with
        | load _ _ | optionsDiffer _ => rcases h.1 with h | h <;> cases h
        | list | extract _ => rfl
      rw [List.foldl_cons, hcall]
      exact ih h.2

/-- Calls other than loads and questions leave an inquiry as it is, but for a change of the options
beside them. -/
theorem after_eq {calls : List EngineCall}
    (hcalls : c.session.worker.calls = b.session.worker.calls ++ calls)
    (hkinds : ∀ call ∈ calls, call.kind = .list ∨ call.kind = .extract) :
    n.after b c = { n with changed := n.changed || decide (c.options.live ≠ b.options.live) } := by
  rw [Inquiry.after, newCalls_eq hcalls, noteCall_foldl hkinds]

theorem after_eq_self {calls : List EngineCall}
    (hcalls : c.session.worker.calls = b.session.worker.calls ++ calls)
    (hkinds : ∀ call ∈ calls, call.kind = .list ∨ call.kind = .extract)
    (hlive : c.options.live = b.options.live) : n.after b c = n := by
  rw [after_eq hcalls hkinds]
  simp [hlive]

/-- A question goes into an inquiry. -/
theorem after_question (n : Inquiry) (calls : List EngineCall) {o : Options}
    (hcalls : c.session.worker.calls = b.session.worker.calls ++ (calls ++ [.optionsDiffer o]))
    (hkinds : ∀ call ∈ calls, call.kind = .list ∨ call.kind = .extract) :
    (n.after b c).questions = n.questions ++ [o] ∧ (n.after b c).answers = n.answers := by
  rw [Inquiry.after, newCalls_eq hcalls, List.foldl_append, noteCall_foldl hkinds]
  exact ⟨rfl, rfl⟩

theorem after_congr (hbefore : Alike b b') (hafter : Alike c' c) : n.after b c = n.after b' c' := by
  rw [Inquiry.after, Inquiry.after, newCalls_congr hbefore.worker.symm hafter.worker,
    hbefore.options, hafter.options]

namespace Coherent

/-- A load that starts begins an inquiry. -/
theorem loaded {f : QueuedFile} (hok : (b.session.load f.path b.options.live).2 = .ok ())
    (hc : c = { b with
      session := (b.session.load f.path b.options.live).1
      options := b.options.markLoaded b.options.live, driftCheckPending := false }) :
    Coherent c (n.after b c) := by
  have hcalls : c.session.worker.calls =
      b.session.worker.calls ++ [.load f.path b.options.live] := by
    rw [hc]
    exact calls_load_of_ok hok
  have hafter : n.after b c = {} := by
    rw [Inquiry.after, newCalls_eq hcalls]
    rfl
  rw [hafter, hc]
  refine .current ?_ rfl rfl rfl rfl rfl rfl
  have hload := Session.loadResult b.session f.path b.options.live
  generalize b.session.load f.path b.options.live = r at hload hok
  cases hload with
  | busy _ | locked _ _ | refused _ _ _ => cases hok
  | sent log _ _ _ => exact nofun

/-- A question on the live options follows those that were answered. -/
theorem questioned {n' : Inquiry} (hasked : Questioned b c)
    (hwaiting : answersAmong b.session.worker.events = [])
    (hneeds : b.options.needsDriftCheck = true)
    (hquestions : n'.questions = n.questions ++ [b.options.live])
    (hanswers : n'.answers = n.answers)
    (hlength : n.questions.length = n.answers.length) : Coherent c n' := by
  refine .asking hasked.slot (.inr (by rw [hasked.options])) (hasked.options ▸ hneeds) hquestions ?_
    hlength
  rw [hanswers, hasked.events, hwaiting, List.append_nil]

/-- Changed options are asked about, at once or once the answer on the former ones has come. -/
theorem checked (h : Coherent b n) (hasked : Asked b' c) (horder : b.session.InOrder)
    (halive : b.session.worker.alive = true) (hstate : b.session.state.isLocked = false)
    (hsession : b'.session = b.session) (hneeds : b'.options.needsDriftCheck = true)
    (hpending : b'.driftCheckPending = true) : Coherent c (n.after b c) := by
  rcases hasked.of_alive (hsession ▸ halive) with ⟨rfl, hwaits⟩ | hasked
  · rw [hsession] at hwaits
    have hbusy := hwaits.resolve_right (by simp [hstate])
    have hslot := (horder.stage.of_unlocked hstate).1.resolve_left hbusy
    have hcalls : c.session.worker.calls = b.session.worker.calls ++ [] := by simp [hsession]
    rw [after_eq hcalls (by simp)]
    cases h with
    | asking _ _ _ hquestions hanswers hlength =>
        exact .asking (hsession ▸ hslot) (.inl hpending) hneeds hquestions (hsession ▸ hanswers)
          hlength
    | untracked hfree _ _ _ _ | current hfree _ _ _ _ _ _ | settled hfree _ _ _ =>
        exact absurd hslot hfree
  · have hfree : b.session.inFlight = none := hsession ▸ hasked.free
    have hcalls := hasked.calls
    rw [hsession] at hcalls
    obtain ⟨hquestions, hanswers⟩ := after_question n [] hcalls (by simp)
    have hnone : b.session.inFlight ≠ some .optionsDiffer := by simp [hfree]
    have hwaiting := horder.slot.answersAmong_eq_nil hnone
    exact questioned hasked (hsession ▸ hwaiting) hneeds hquestions hanswers (h.length_eq hnone)

end Coherent

/-! ## Ticks -/

theorem after_polled (n : Inquiry) (b : Browser) : n.after b b.polled = n := by
  obtain ⟨calls, hcalls, hkinds⟩ := calls_polled b
  refine after_eq_self hcalls (fun call hcall => .inl (hkinds call hcall)) ?_
  obtain ⟨_, heq⟩ := heed_eq b.options b.session.poll.2
  rw [polled, heq]

/-! ## The engine's side -/

theorem after_worker (n : Inquiry) (b : Browser) (action : Worker.Action) :
    n.after b (b.step (.worker action)) = n := by
  have hnone : newCalls b (b.step (.worker action)) = [] := sent_worker b action
  rw [Inquiry.after, hnone]
  simp [step]

namespace Coherent

/-- A poll without an answer changes nothing that an inquiry speaks of. -/
theorem polled_of_noAnswer (h : Coherent b n)
    (hnone : answersAmong b.session.worker.events = [])
    (hslot : b.polled.session.inFlight = some .optionsDiffer ↔
      b.session.inFlight = some .optionsDiffer) : Coherent b.polled n := by
  refine h.congr hslot rfl ?_ ?_
  · rw [options_polled, hnone]
    rfl
  · rw [events_polled, hnone]
    rfl

/-- A question whose answer is polled: the answer is the one on the last question. -/
theorem answered (h : Coherent b n) (hread : none ∉ n.answers)
    (hslot : b.session.inFlight = some .optionsDiffer)
    {answer : Option Bool} (hanswer : answersAmong b.session.worker.events = [answer]) :
    ∃ o differ, n.Settled o differ ∧ (b.driftCheckPending = true ∨ b.options.live = o) ∧
      b.options.needsDriftCheck = true ∧
      b.polled.options = { b.options with reloadNeeded := differ } := by
  cases h with
  | asking _ hlive hneeds hquestions hanswers hlength =>
      rw [hanswer] at hanswers
      cases answer with
      | none => exact absurd (by rw [hanswers]; simp) hread
      | some differ =>
          refine ⟨_, differ, ⟨_, _, hquestions, hanswers, hlength⟩, hlive, hneeds, ?_⟩
          rw [options_polled, hanswer]
          rfl
  | untracked hfree _ _ _ _ | current hfree _ _ _ _ _ _ | settled hfree _ _ _ =>
      exact absurd hslot hfree

theorem ticked_idle (h : Coherent b n) (hread : none ∉ n.answers) (horder : b.session.InOrder)
    (halive : b.session.worker.alive = true) (hpending : b.driftCheckPending = false) :
    Coherent b.polled (n.after b b.polled) := by
  rw [after_polled n b]
  cases Session.slotPolled horder.slot halive with
  | silent hnone hslot => exact h.polled_of_noAnswer hnone (by rw [polled, hslot])
  | other hbefore hnone hafter =>
      exact h.polled_of_noAnswer hnone (iff_of_false hafter hbefore)
  | answered answer hslot hanswer hfree =>
      obtain ⟨o, differ, hsettled, hlive, hneeds, hoptions⟩ := h.answered hread hslot hanswer
      have hlive' : b.options.live = o := hlive.resolve_left (by simp [hpending])
      refine .settled (by simp [polled, hfree]) hpending (hoptions ▸ hneeds) ?_
      rw [hoptions]
      exact hlive' ▸ hsettled

/-- A question that had to wait is put by the tick that handles the answer to the one before. -/
theorem asked (h : Coherent b n) (hread : none ∉ n.answers) (horder : b.session.InOrder)
    (halive : b.session.worker.alive = true) (hpending : b.driftCheckPending = true)
    (hasked : Asked b.polled c) : Coherent c (n.after b c) := by
  have hslot : b.session.inFlight = some .optionsDiffer := by
    cases h with
    | asking hslot _ _ _ _ _ => exact hslot
    | untracked _ hidle _ _ _ | current _ hidle _ _ _ _ _ | settled _ hidle _ _ =>
        cases hidle.symm.trans hpending
  have horder' : b.polled.session.InOrder := horder.step .poll
  cases Session.slotPolled horder.slot halive with
  | other hfree _ _ => exact absurd hslot hfree
  | silent hnone hslot' =>
      have hbusy : b.polled.session.inFlight = some .optionsDiffer := hslot'.trans hslot
      rcases hasked.of_alive ((alive_polled b).trans halive) with ⟨rfl, _⟩ | hasked
      · rw [after_polled n b]
        exact h.polled_of_noAnswer hnone (by rw [hbusy, hslot])
      · cases hbusy.symm.trans hasked.free
  | answered answer _ hanswer hfree =>
      have hfree' : b.polled.session.inFlight = none := hfree
      rcases hasked.of_alive ((alive_polled b).trans halive) with ⟨rfl, hwaits⟩ | hasked
      · have hunlocked := (horder'.stage.of_free hfree').1
        rcases hwaits with hbusy | hlocked
        · exact absurd hfree' hbusy
        · cases hunlocked.symm.trans hlocked
      · obtain ⟨o, differ, hsettled, _, hneeds, hoptions⟩ := h.answered hread hslot hanswer
        obtain ⟨questions, answers, hquestions, hanswers, hlength⟩ := hsettled
        obtain ⟨calls, hcalls, hkinds⟩ := calls_polled b
        have hcalls' := hasked.calls
        rw [hcalls, List.append_assoc] at hcalls'
        obtain ⟨hquestions', hanswers'⟩ := after_question n calls hcalls'
          fun call hcall => .inl (hkinds call hcall)
        refine questioned hasked ?_ (hoptions ▸ hneeds) hquestions' hanswers' ?_
        · rw [events_polled]
          rfl
        · rw [hquestions, hanswers, List.length_append, List.length_append, hlength]
          rfl

theorem ticked (h : Coherent b n) (hread : none ∉ n.answers) (horder : b.session.InOrder)
    (halive : b.session.worker.alive = true) (hticked : Ticked b c) : Coherent c (n.after b c) := by
  cases hticked with
  | polled hpending => exact h.ticked_idle hread horder halive hpending
  | asked hpending hasked => exact h.asked hread horder halive hpending hasked

/-! ## Steps -/

/-- Where neither a load nor a question is sent, and the options stay, so does the inquiry. -/
theorem silent {calls : List EngineCall} (h : Coherent b n)
    (hcalls : c.session.worker.calls = b.session.worker.calls ++ calls)
    (hkinds : ∀ call ∈ calls, call.kind = .list ∨ call.kind = .extract)
    (hevents : c.session.worker.events = b.session.worker.events)
    (hslot : c.session.inFlight = some .optionsDiffer ↔ b.session.inFlight = some .optionsDiffer)
    (hpending : c.driftCheckPending = b.driftCheckPending) (hoptions : c.options = b.options) :
    Coherent c (n.after b c) := by
  rw [after_eq_self hcalls hkinds (by rw [hoptions])]
  exact h.congr hslot hpending hoptions (by rw [hevents])

theorem still (h : Coherent b n) (hworker : c.session.worker = b.session.worker)
    (hslot : c.session.inFlight = b.session.inFlight)
    (hpending : c.driftCheckPending = b.driftCheckPending) (hoptions : c.options = b.options) :
    Coherent c (n.after b c) := by
  have hcalls : c.session.worker.calls = b.session.worker.calls ++ [] := by simp [hworker]
  exact h.silent hcalls (by simp) (by rw [hworker]) (by rw [hslot]) hpending hoptions

/-- Without a load to compare with, changed options are not asked about. -/
theorem changed (h : Coherent b n) (hneeds : b.options.needsDriftCheck = false)
    (hsession : c.session = b.session) (hpending : c.driftCheckPending = b.driftCheckPending)
    (hload : c.options.lastLoaded = b.options.lastLoaded) : Coherent c (n.after b c) := by
  have hnone : b.options.lastLoaded = none := by
    simpa [OptionsState.needsDriftCheck] using hneeds
  have hcalls : c.session.worker.calls = b.session.worker.calls ++ [] := by simp [hsession]
  rw [after_eq hcalls (by simp)]
  cases h with
  | untracked hfree hpending' _ hquestions hanswers =>
      exact .untracked (hsession ▸ hfree) (hpending.trans hpending') (hload.trans hnone) hquestions
        hanswers
  | current _ _ hload' _ _ _ _ => cases hnone.symm.trans hload'
  | asking _ _ hneeds' _ _ _ | settled _ _ hneeds' _ =>
      cases hneeds.symm.trans hneeds'

theorem effect (h : Coherent b n) (horder : b.session.InOrder)
    (halive : b.session.worker.alive = true) (heffect : Effect b c) : Coherent c (n.after b c) := by
  cases heffect with
  | nothing => exact h.still rfl rfl rfl rfl
  | moved queue _ => exact h.still rfl rfl rfl rfl
  | added files _ => exact h.still rfl rfl rfl rfl
  | passed step hstep =>
      obtain ⟨calls, hcalls, hkinds⟩ := hstep.calls
      obtain ⟨hslot, hevents⟩ := hstep.slot
      exact h.silent hcalls (fun call hcall => .inr (hkinds call hcall)) hevents hslot rfl rfl
  | loaded f _ hok => exact loaded hok rfl
  | unloaded f e herror =>
      obtain ⟨hworker, hslot⟩ := worker_load_of_error herror
      exact h.still hworker hslot rfl rfl
  | changed o _ hneeds => exact h.changed hneeds rfl rfl rfl
  | checked o _ hstate hneeds hasked => exact h.checked hasked horder halive hstate rfl hneeds rfl
  | quit =>
      obtain ⟨_, files, output, heq⟩ := Session.shutdown_eq b.session
      rw [heq]
      exact h.silent (List.append_nil _).symm (by simp) rfl .rfl rfl rfl

theorem removal (h : Coherent b n) (hremoval : Removal b c) : Coherent c (n.after b c) := by
  obtain ⟨hoptions, hpending, hworker, hslot⟩ := hremoval.unasked
  exact h.still hworker hslot hpending hoptions

/-- A reply that the engine's side gives joins the answers that wait, and is noted. -/
theorem acted (h : Coherent b n) (horder : b.session.InOrder)
    (halive : b.session.worker.alive = true) (action : Worker.Action) :
    Coherent (b.step (.worker action)) (b.note n (.worker action)) := by
  rw [note, after_worker]
  cases hanswered : b.answered? (.worker action) with
  | none => exact h.congr .rfl rfl rfl (answersAmong_act_of_none hanswered)
  | some result =>
      obtain ⟨hmem, hanswers'⟩ := answersAmong_act_of_some hanswered
      have hslot : b.session.inFlight = some .optionsDiffer := by
        have howed : b.session.worker.outstanding = b.session.inFlight.toList :=
          horder.slot.owed_eq halive
        rw [howed] at hmem
        exact Option.mem_toList.mp hmem
      cases h with
      | asking _ hlive hneeds hquestions hanswers hlength =>
          refine .asking hslot hlive hneeds hquestions ?_ hlength
          simp only [hanswers, List.append_assoc]
          exact congrArg (_ ++ ·) hanswers'.symm
      | untracked hfree _ _ _ _ | current hfree _ _ _ _ _ _ | settled hfree _ _ _ =>
          exact absurd hslot hfree

end Coherent

/-! ## Runs -/

theorem mem_answers_foldl {answer : Option Bool} (calls : List EngineCall)
    (h : answer ∈ (calls.foldl Inquiry.noteCall n).answers) : answer ∈ n.answers := by
  induction calls generalizing n with
  | nil => exact h
  | cons call rest ih =>
      have hanswers := ih h
      cases call with
      | load _ _ => cases hanswers
      | list | extract _ | optionsDiffer _ => exact hanswers

/-- What holds along a run while the worker lives and its answers can be read. -/
structure Follows (b : Browser) (n : Inquiry) : Prop where
  coherent : Coherent b n
  read : none ∉ n.answers
  order : b.session.InOrder

theorem none_not_mem_note (h : none ∉ n.answers)
    (hread : (b.answered? event).all (fun result => (readAnswer result).isSome) = true) :
    none ∉ (b.note n event).answers := by
  have hafter : none ∉ (n.after b (b.step event)).answers := mt (mem_answers_foldl _) h
  rw [note]
  cases hanswered : b.answered? event with
  | none => exact hafter
  | some result =>
      rw [hanswered, Option.all_some] at hread
      simp only [List.mem_append, List.mem_singleton, not_or]
      refine ⟨hafter, fun hnone => ?_⟩
      rw [← hnone] at hread
      cases hread

theorem note_of_not_worker (hworker : ∀ action, event ≠ .worker action) :
    b.note n event = n.after b (b.step event) := by
  cases event with
  | worker action => exact absurd rfl (hworker action)
  | key _ | paste _ | action _ | addFiles _ | toggleOption _ | resetOptions | abortExtraction
  | resize _ | tick | files _ => rfl

theorem not_worker_of_tick (h : event = .tick) : ∀ action, event ≠ .worker action := by
  rintro action rfl
  cases h

theorem not_worker_of_action {action : Action} (h : b.action? event = some action) :
    ∀ action, event ≠ .worker action := by
  rintro action rfl
  cases h

theorem Follows.step (h : Follows b n) (halive : b.session.worker.alive = true)
    (hread : (b.answered? event).all (fun result => (readAnswer result).isSome) = true) :
    Follows (b.step event) (b.note n event) := by
  refine ⟨?_, none_not_mem_note h.read hread, session_step kept_inOrder event h.order⟩
  cases stepped b event with
  | removes hremove hremoval hshown =>
      rw [note_of_not_worker (not_worker_of_action hremove), after_congr (.refl b) hshown]
      exact (h.coherent.removal hremoval).alike hshown
  | acts action heq =>
      rw [heq]
      exact h.coherent.acted h.order halive action
  | ticks htick hticked hshown =>
      rw [note_of_not_worker (not_worker_of_tick htick), after_congr (.refl b) hshown]
      exact (h.coherent.ticked h.read h.order halive hticked).alike hshown
  | does _ hworker hdoes =>
      obtain ⟨b', c', hbefore, heffect, hafter⟩ := hdoes
      rw [note_of_not_worker hworker, after_congr hbefore hafter]
      have heffect' := (h.coherent.alike hbefore).effect (kept_inOrder.alike hbefore h.order)
        (hbefore.worker ▸ halive) heffect
      exact heffect'.alike hafter

theorem Follows.run {events : List Event} (h : Follows b n)
    (halive : (b.run events).session.worker.alive = true)
    (hread : b.answersRead events = true) : Follows (b.run events) (b.inquiry n events) := by
  induction events generalizing b n with
  | nil => exact h
  | cons event rest ih =>
      rw [answersRead, Bool.and_eq_true] at hread
      exact ih (h.step (alive_of_alive_run halive) hread.1) halive hread.2

/-- **No answer for outdated options is left showing**: as long as the worker lives and its answers
on the options can be read, whenever there is a load to compare with, and no question is pending or
under way, either nothing was changed since that load was started, and the live options are those it
was started with and need no reload; or the last question since then was on exactly the live
options, and what shows is the engine's answer to it. -/
theorem drift_run (config : Config) (env : Config.Environment) (dir : String) (files : FileStore)
    (events : List Event)
    (halive : ((new config env dir files).run events).session.worker.alive = true)
    (hread : (new config env dir files).answersRead events = true) :
    let b := (new config env dir files).run events
    let n := (new config env dir files).inquiry {} events
    b.options.needsDriftCheck = true → b.driftCheckPending = false →
      b.session.inFlight ≠ some .optionsDiffer →
      n.changed = false ∧ b.options.lastLoaded = some b.options.live ∧
          b.options.reloadNeeded = false ∨
        n.Settled b.options.live b.options.reloadNeeded := by
  intro b n hneeds hidle hfree
  have hstart : Follows (new config env dir files) {} :=
    ⟨.untracked nofun rfl rfl rfl rfl, List.not_mem_nil, inOrder_run config env dir files []⟩
  have hb : Coherent b n := (hstart.run halive hread).coherent
  cases hb with
  | untracked _ _ hload _ _ => simp [OptionsState.needsDriftCheck, hload] at hneeds
  | current _ _ hload hneeded hchanged _ _ => exact .inl ⟨hchanged, hload, hneeded⟩
  | asking hbusy _ _ _ _ _ => exact absurd hbusy hfree
  | settled _ _ _ hsettled => exact .inr hsettled

/-- An option is changed back while the answer on the first change waits. -/
def revertEvents : List Event :=
  [ .toggleOption .excludeTemps, .worker .take, .worker (.reply (.ok "true"))
  , .toggleOption .excludeTemps, .tick
  , .worker .take, .worker (.reply (.ok "false")), .tick ]

/-- The tick that keeps the outdated answer asks again, and the second answer is what shows. -/
theorem drift_run_revert :
    let events := setupEvents ++ revertEvents
    let b := (new {} atHome "out" setupFiles).run events
    let n := (new {} atHome "out" setupFiles).inquiry {} events
    b.session.worker.alive = true ∧ (new {} atHome "out" setupFiles).answersRead events = true ∧
      b.options.needsDriftCheck = true ∧ b.driftCheckPending = false ∧
      b.session.inFlight ≠ some .optionsDiffer ∧ n.answers = [some true, some false] ∧
      n.Settled b.options.live b.options.reloadNeeded := by
  intro events b n
  have halive : b.session.worker.alive = true := by decide +kernel
  have hread : (new {} atHome "out" setupFiles).answersRead events = true := by decide +kernel
  have hneeds : b.options.needsDriftCheck = true := by decide +kernel
  have hidle : b.driftCheckPending = false := by decide +kernel
  have hfree : b.session.inFlight ≠ some .optionsDiffer := by decide +kernel
  have hchanged : n.changed = true := by decide +kernel
  refine ⟨halive, hread, hneeds, hidle, hfree, by decide +kernel, ?_⟩
  rcases drift_run {} atHome "out" setupFiles events halive hread hneeds hidle hfree with h | h
  · cases h.1.symm.trans hchanged
  · exact h

end Browser

end InstallerBrowser
