import InstallerBrowser.Proofs.Browser.Calls
import InstallerBrowser.Proofs.Session.Installer

/-!
# InstallerBrowser.Proofs.Browser.Enabled

Enabled means possible.

Whether an action is shown as enabled is told from the state, the slot, the queue and the metadata;
what the action does is decided by guards of its own.  A disabled action does nothing but tell so
(`Inert`), whatever the browser is like.  An enabled one does what it is for, and this rests on what
a session with a living worker keeps all along a run (`Sound`): an extraction finds a tree, an abort
a call that is under way, and a change of the language a choice among those there are.
-/

namespace InstallerBrowser

open Session

variable {b c d : Browser} {forward : Bool} {i count : Nat}

/-- What a session keeps all along a run, as far as the worker lives. -/
structure Session.Sound (s : Session) : Prop where
  order : s.InOrder
  furnished : s.worker.alive = true → s.Furnished
  language : s.LanguageFits

/-- An abort finds its call under way. -/
theorem Session.OnStage.of_extracting {s : Session} (h : OnStage s)
    (hstate : s.state = .extracting) : s.inFlight = some .extract := by
  rw [OnStage, hstate] at h
  generalize s.inFlight = slot, s.pendingFile = file at h
  cases h with
  | resting hlocked | checking hlocked => cases hlocked
  | extracting => rfl

namespace Browser

theorem kept_sound : Kept Session.Sound where
  step := by
    intro s step h
    refine ⟨h.order.step step, fun halive => ?_, languageFits_step step h.order.slot h.language⟩
    have hbefore := alive_of_step halive
    exact furnished_step step hbefore h.order.slot (h.furnished hbefore)
  noted := by
    intro s log files h
    refine ⟨h.order.noted log files, fun halive => ?_, h.language⟩
    exact ⟨(h.furnished halive).stage, (h.furnished halive).holds⟩

theorem sound_run (config : Config) (env : Config.Environment) (dir : String) (files : FileStore)
    (events : List Event) : ((new config env dir files).run events).session.Sound :=
  session_run kept_sound events
    ⟨inOrder_new _ _ _, fun _ => furnished_new _ _ _, fits_first []⟩

/-! ## Doing nothing -/

/-- Nothing differs of the session, the queue and the options. -/
structure Still (b c : Browser) : Prop where
  session : c.session = b.session
  queue : c.queue = b.queue
  options : c.options = b.options

theorem still_refl (b : Browser) : Still b b := ⟨rfl, rfl, rfl⟩

theorem still_showToast (b : Browser) (message : String) : Still b (b.showToast message) :=
  ⟨rfl, rfl, rfl⟩

/-- Nothing differs of the queue and the options, and of the session at most the log. -/
structure Inert (b c : Browser) : Prop where
  session : ∃ log, c.session = { b.session with log }
  queue : c.queue = b.queue
  options : c.options = b.options

theorem Still.inert (h : Still b c) : Inert b c := ⟨⟨b.session.log, h.session⟩, h.queue, h.options⟩

theorem Inert.trans (h : Inert b c) (h' : Inert c d) : Inert b d where
  session := by
    obtain ⟨_, hsession⟩ := h.session
    obtain ⟨log, hsession'⟩ := h'.session
    exact ⟨log, by rw [hsession', hsession]⟩
  queue := h'.queue.trans h.queue
  options := h'.options.trans h.options

theorem inert_mapLog (b : Browser) (f : Log → Log) : Inert b (b.mapLog f) := ⟨⟨_, rfl⟩, rfl, rfl⟩

theorem inert_reportError (b : Browser) (e : AppError) : Inert b (b.reportError e) :=
  ⟨⟨_, rfl⟩, rfl, rfl⟩

theorem Inert.newCalls (h : Inert b c) : newCalls b c = [] := by
  obtain ⟨log, hsession⟩ := h.session
  exact newCalls_eq_nil (by rw [hsession])

/-! ## Loading -/

theorem isEnabled_loadInstaller :
    b.isEnabled .loadInstaller = true ↔
      b.queue.selectedFile.isSome = true ∧ b.session.state.canLoad = true ∧
        b.session.inFlight = none := by
  simp [isEnabled, FileQueue.canLoad, isBusy, and_assoc]

theorem loadSelected_of_ok {f : QueuedFile} {session : Session} (hf : b.queue.selectedFile = some f)
    (h : b.session.load f.path b.options.live = (session, .ok ())) :
    b.loadSelected =
      { b with
        session
        options := b.options.markLoaded b.options.live
        driftCheckPending := false
        treeCursor := 0
        treeScroll := 0 } := by
  simp only [loadSelected, hf, h]

theorem loadSelected_of_error {f : QueuedFile} {session : Session} {e : AppError}
    (hf : b.queue.selectedFile = some f)
    (h : b.session.load f.path b.options.live = (session, .error e)) :
    b.loadSelected = { b with session }.reportError e := by
  simp only [loadSelected, hf, h]

theorem inert_loadSelected (h : b.isEnabled .loadInstaller = false) : Inert b b.loadSelected := by
  rw [← Bool.not_eq_true, isEnabled_loadInstaller] at h
  cases hf : b.queue.selectedFile with
  | none =>
      simp only [loadSelected, hf]
      exact (still_showToast b _).inert
  | some f =>
      have hload := loadResult b.session f.path b.options.live
      generalize hr : b.session.load f.path b.options.live = r at hload
      cases hload with
      | busy _ | locked _ _ =>
          rw [loadSelected_of_error hf hr]
          exact inert_reportError b _
      | refused hfree hstate _ | sent _ hfree hstate _ =>
          exact absurd ⟨by rw [hf]; rfl, hstate, hfree⟩ h

/-- With a living worker, a load that is possible is sent. -/
theorem newCalls_loadSelected (h : b.isEnabled .loadInstaller = true)
    (halive : b.session.worker.alive = true) :
    ∃ file options, newCalls b b.loadSelected = [.load file options] := by
  obtain ⟨hfile, hstate, hfree⟩ := isEnabled_loadInstaller.mp h
  obtain ⟨f, hf⟩ := Option.isSome_iff_exists.mp hfile
  refine ⟨f.path, b.options.live, ?_⟩
  have hload := loadResult b.session f.path b.options.live
  generalize hr : b.session.load f.path b.options.live = r at hload
  cases hload with
  | busy hbusy => cases hfree.symm.trans hbusy
  | locked _ hlocked => cases hstate.symm.trans hlocked
  | refused _ _ hdead => cases halive.symm.trans hdead
  | sent _ _ _ _ =>
      rw [loadSelected_of_ok hf hr]
      exact newCalls_eq (Worker.calls_send_of_alive halive _)

/-! ## Extracting -/

theorem isEnabled_extract :
    b.isEnabled .extract = true ↔ b.session.state = .ready ∧ b.session.inFlight = none := by
  simp [isEnabled, isBusy]

/-- What an extraction says first changes neither what is enabled nor what is sent. -/
def announced (b : Browser) : Browser :=
  if b.nothingChecked then b.mapLog (·.info "Nothing is checked; the engine decides what to write")
  else b

theorem inert_announced (b : Browser) : Inert b b.announced := by
  unfold announced
  split
  · exact inert_mapLog b _
  · exact (still_refl b).inert

theorem isEnabled_announced (b : Browser) :
    b.announced.isEnabled .extract = b.isEnabled .extract := by
  unfold announced
  split <;> rfl

theorem extractSelected_of_ok {session : Session}
    (h : b.announced.session.extract = (session, .ok ())) :
    b.extractSelected = { b.announced with session } := by
  rw [announced] at h ⊢
  simp only [extractSelected, h]

theorem extractSelected_of_error {session : Session} {e : AppError}
    (h : b.announced.session.extract = (session, .error e)) :
    b.extractSelected = { b.announced with session }.reportError e := by
  rw [announced] at h ⊢
  simp only [extractSelected, h]

theorem inert_extractSelected (h : b.isEnabled .extract = false) : Inert b b.extractSelected := by
  refine (inert_announced b).trans ?_
  rw [← isEnabled_announced, ← Bool.not_eq_true, isEnabled_extract] at h
  have hextract := extractResult b.announced.session
  generalize hr : b.announced.session.extract = r at hextract
  cases hextract with
  | busy _ | unready _ _ =>
      rw [extractSelected_of_error hr]
      exact inert_reportError b.announced _
  | unopened hfree htree _ | refused _ hfree htree _ _ | sent _ _ hfree htree _ _ =>
      exact absurd ⟨state_of_editableTree htree, hfree⟩ h

/-- With a living worker, an extraction that is possible is sent, unless its output cannot be
opened. -/
theorem newCalls_extractSelected (h : b.isEnabled .extract = true) (hsound : b.session.Sound)
    (halive : b.session.worker.alive = true) :
    (∃ request, newCalls b b.extractSelected = [.extract request]) ∨
      newCalls b b.extractSelected = [] ∧
        ∃ session e, b.announced.session.extract = (session, .error (.storage e)) ∧
          b.extractSelected.dialog = some (.ofError (.storage e)) := by
  obtain ⟨hstate, hfree⟩ := isEnabled_extract.mp h
  obtain ⟨_, _, tree, _, _, htree⟩ := (hsound.furnished halive).holds.of_installer (.inl hstate)
  obtain ⟨log, hsession⟩ := (inert_announced b).session
  have hworker : b.announced.session.worker = b.session.worker := by rw [hsession]
  have hextract := extractResult b.announced.session
  generalize hr : b.announced.session.extract = r at hextract
  cases hextract with
  | busy hbusy =>
      rw [hsession] at hbusy
      cases hfree.symm.trans hbusy
  | unready _ hnone =>
      rw [hsession, editableTree, if_pos hstate, htree] at hnone
      cases hnone
  | unopened _ _ _ =>
      rw [extractSelected_of_error hr]
      exact .inr ⟨newCalls_eq_nil (congrArg Worker.calls hworker), _, _, rfl, rfl⟩
  | refused _ _ _ _ hdead =>
      rw [hworker] at hdead
      cases halive.symm.trans hdead
  | @sent tree _ sink _ _ _ _ _ hlives =>
      rw [extractSelected_of_ok hr]
      refine .inl ⟨b.announced.session.extractionRequest tree sink, newCalls_eq ?_⟩
      rw [← hworker]
      exact Worker.calls_send_of_alive hlives _

/-! ## Aborting -/

theorem isEnabled_abort_iff (hsound : b.session.Sound) :
    b.isEnabled .abort = true ↔ b.session.abort.2 = true := by
  have henabled : b.isEnabled .abort = true ↔ b.session.state = .extracting := by simp [isEnabled]
  rw [henabled]
  constructor
  · intro hstate
    have hslot := hsound.order.stage.of_extracting hstate
    rw [abort, if_pos ⟨hstate, hslot⟩]
  · intro habort
    rcases abort_cases b.session with heq | ⟨hstate, _⟩
    · rw [heq] at habort
      cases habort
    · exact hstate

theorem still_askToAbort (b : Browser) : Still b b.askToAbort := by
  unfold askToAbort
  split
  · exact ⟨rfl, rfl, rfl⟩
  · exact still_showToast b _

/-! ## Languages -/

theorem cycled_lt (hcount : 1 < count) : cycled forward i count < count :=
  Nat.mod_lt _ (Nat.zero_lt_of_lt hcount)

/-- Among two languages or more, the next one is another. -/
theorem cycled_ne (hi : i < count) (hcount : 1 < count) : cycled forward i count ≠ i := by
  unfold cycled
  cases forward with
  | true =>
      rw [if_pos rfl]
      by_cases hlast : i + 1 = count
      · rw [hlast, Nat.mod_self]
        omega
      · rw [Nat.mod_eq_of_lt (by omega)]
        omega
  | false =>
      rw [if_neg Bool.false_ne_true]
      cases i with
      | zero =>
          rw [Nat.mod_eq_of_lt (by omega)]
          omega
      | succ i =>
          have hprev : i + 1 + count - 1 = i + count := by omega
          rw [hprev, Nat.add_mod_right, Nat.mod_eq_of_lt (by omega)]
          omega

/-- The action that chooses the next language, or the previous one. -/
def languageAction (forward : Bool) : Action := if forward then .nextLanguage else .prevLanguage

theorem isEnabled_languageAction :
    b.isEnabled (languageAction forward) = true ↔
      b.session.state = .ready ∧ 1 < b.session.languages.length := by
  cases forward <;> simp [isEnabled, languageAction]

theorem cycleLanguage_of_disabled (h : b.isEnabled (languageAction forward) = false) :
    b.cycleLanguage forward = b := by
  rw [← Bool.not_eq_true, isEnabled_languageAction] at h
  rw [cycleLanguage, if_neg h]

theorem language_cycleLanguage (h : b.isEnabled (languageAction forward) = true) :
    (b.cycleLanguage forward).session.language =
      some (cycled forward (b.session.language.getD 0) b.session.languages.length) := by
  rw [isEnabled_languageAction] at h
  simp only [cycleLanguage, if_pos h, selectLanguage, if_pos (cycled_lt h.2)]
  split <;> rfl

theorem isEnabled_languageAction_iff (hsound : b.session.Sound) :
    b.isEnabled (languageAction forward) = true ↔
      (b.cycleLanguage forward).session.language ≠ b.session.language := by
  constructor
  · intro h
    obtain ⟨_, hcount⟩ := isEnabled_languageAction.mp h
    have hfits := hsound.language
    rw [language_cycleLanguage h]
    rw [LanguageFits] at hfits
    cases hlanguage : b.session.language with
    | none => exact Option.some_ne_none _
    | some i =>
        rw [hlanguage] at hfits
        rw [Option.getD_some]
        exact fun heq => cycled_ne hfits hcount (Option.some.inj heq)
  · intro hne
    rw [← Bool.not_eq_false]
    exact fun h => hne (by rw [cycleLanguage_of_disabled h])

/-! ## Check marks -/

/-- The actions that change check marks. -/
def markActions : List Action := [.toggleCheck, .checkAll, .uncheckAll]

theorem isEnabled_of_mem_markActions {action : Action} (h : action ∈ markActions) :
    b.isEnabled action = true ↔ b.session.state = .ready := by
  simp only [markActions, List.mem_cons, List.not_mem_nil, or_false] at h
  rcases h with rfl | rfl | rfl <;> simp [isEnabled]

theorem isEnabled_markAction_iff {action : Action} (h : action ∈ markActions)
    (hsound : b.session.Sound) (halive : b.session.worker.alive = true) :
    b.isEnabled action = true ↔ b.session.editableTree.isSome = true := by
  rw [isEnabled_of_mem_markActions h]
  constructor
  · intro hstate
    obtain ⟨_, _, tree, _, _, htree⟩ := (hsound.furnished halive).holds.of_installer (.inl hstate)
    rw [editableTree, if_pos hstate, htree]
    rfl
  · intro hsome
    obtain ⟨tree, htree⟩ := Option.isSome_iff_exists.mp hsome
    exact state_of_editableTree htree

theorem still_markAction {action : Action} (h : action ∈ markActions)
    (hdisabled : b.isEnabled action = false) : Still b (b.execute action) := by
  have hnone : b.session.editableTree = none := by
    rw [← Bool.not_eq_true, isEnabled_of_mem_markActions h] at hdisabled
    rw [editableTree, if_neg hdisabled]
  have hmarks : ∀ f, b.mapMarks f = b := fun f => by rw [mapMarks, hnone]
  simp only [markActions, List.mem_cons, List.not_mem_nil, or_false] at h
  rcases h with rfl | rfl | rfl
  · simp only [execute, toggleCheck, hnone]
    split
    · exact still_refl b
    · exact still_showToast b _
  · simp only [execute, hmarks]
    exact still_refl b
  · simp only [execute, hmarks]
    exact still_refl b

/-! ## All of them -/

/-- The actions that are refused without a word in the log. -/
def quietActions : List Action := [.abort, .nextLanguage, .prevLanguage] ++ markActions

/-- The actions that are enabled at times only, and concern the session. -/
def sessionActions : List Action := [.loadInstaller, .extract] ++ quietActions

theorem still_execute {action : Action} (h : action ∈ quietActions)
    (hdisabled : b.isEnabled action = false) : Still b (b.execute action) := by
  rw [quietActions, List.mem_append] at h
  rcases h with h | hmark
  · simp only [List.mem_cons, List.not_mem_nil, or_false] at h
    rcases h with rfl | rfl | rfl
    · exact still_askToAbort b
    · have hsame : b.cycleLanguage true = b := cycleLanguage_of_disabled hdisabled
      rw [execute, hsame]
      exact still_refl b
    · have hsame : b.cycleLanguage false = b := cycleLanguage_of_disabled hdisabled
      rw [execute, hsame]
      exact still_refl b
  · exact still_markAction hmark hdisabled

theorem inert_execute {action : Action} (h : action ∈ sessionActions)
    (hdisabled : b.isEnabled action = false) : Inert b (b.execute action) := by
  rw [sessionActions, List.mem_append] at h
  rcases h with h | hquiet
  · simp only [List.mem_cons, List.not_mem_nil, or_false] at h
    rcases h with rfl | rfl
    · exact inert_loadSelected hdisabled
    · exact inert_extractSelected hdisabled
  · exact (still_execute hquiet hdisabled).inert

/-- **Enabled means possible**: after any events that leave the worker alive, a load is enabled
exactly if it sends its call; an extraction that is enabled sends its call or fails for want of an
output, and one that is not sends nothing; an abort is enabled exactly if it is heeded, a change of
the language exactly if another one is chosen then, and a change of check marks exactly if they may
be changed.  An action that is disabled leaves the queue, the options and the session as they are,
but for the log, where a load or an extraction tells why it failed. -/
theorem enabled_run (config : Config) (env : Config.Environment) (dir : String) (files : FileStore)
    (events : List Event)
    (halive : ((new config env dir files).run events).session.worker.alive = true) :
    let b := (new config env dir files).run events
    (b.isEnabled .loadInstaller = true ↔
        ∃ file options, newCalls b b.loadSelected = [.load file options]) ∧
      (b.isEnabled .extract = true →
        (∃ request, newCalls b b.extractSelected = [.extract request]) ∨
          newCalls b b.extractSelected = [] ∧
            ∃ session e, b.announced.session.extract = (session, .error (.storage e)) ∧
              b.extractSelected.dialog = some (.ofError (.storage e))) ∧
      (b.isEnabled .extract = false → newCalls b b.extractSelected = []) ∧
      (b.isEnabled .abort = true ↔ b.session.abort.2 = true) ∧
      (∀ forward, b.isEnabled (languageAction forward) = true ↔
        (b.cycleLanguage forward).session.language ≠ b.session.language) ∧
      (∀ action ∈ markActions,
        b.isEnabled action = true ↔ b.session.editableTree.isSome = true) ∧
      (∀ action ∈ sessionActions, b.isEnabled action = false → Inert b (b.execute action)) ∧
      ∀ action ∈ quietActions, b.isEnabled action = false → Still b (b.execute action) := by
  intro b
  have hsound : b.session.Sound := sound_run config env dir files events
  have hload : b.isEnabled .loadInstaller = true ↔
      ∃ file options, newCalls b b.loadSelected = [.load file options] := by
    constructor
    · exact fun h => newCalls_loadSelected h halive
    · rintro ⟨file, options, hcalls⟩
      rw [← Bool.not_eq_false]
      intro hdisabled
      rw [(inert_loadSelected hdisabled).newCalls] at hcalls
      cases hcalls
  exact ⟨hload, fun h => newCalls_extractSelected h hsound halive,
    fun h => (inert_extractSelected h).newCalls, isEnabled_abort_iff hsound,
    fun _ => isEnabled_languageAction_iff hsound,
    fun _ h => isEnabled_markAction_iff h hsound halive,
    fun _ h => inert_execute h, fun _ h => still_execute h⟩

/-- An installer that is ready can be loaded again and extracted, and its marks can be changed;
there is nothing to abort and no other language. -/
theorem enabled_run_setup :
    let b := (new {} atHome "out" setupFiles).run setupEvents
    (∃ file options, newCalls b b.loadSelected = [.load file options]) ∧
      b.isEnabled .extract = true ∧ b.session.editableTree.isSome = true ∧
      b.session.abort.2 = false ∧ Still b (b.execute .abort) ∧
      (b.cycleLanguage true).session.language = b.session.language := by
  intro b
  have halive : b.session.worker.alive = true := by decide +kernel
  have hload : b.isEnabled .loadInstaller = true := by decide +kernel
  have hextract : b.isEnabled .extract = true := by decide +kernel
  have hmarks : b.isEnabled .checkAll = true := by decide +kernel
  have habort : b.isEnabled .abort = false := by decide +kernel
  have hlanguage : b.isEnabled (languageAction true) = false := by decide +kernel
  obtain ⟨hsent, _, _, haborts, hlanguages, htree, _, hstill⟩ :=
    enabled_run {} atHome "out" setupFiles setupEvents halive
  have hunheeded : b.session.abort.2 = false := by
    rw [← Bool.not_eq_true]
    exact fun h => nomatch habort.symm.trans (haborts.mpr h)
  have hsame : (b.cycleLanguage true).session.language = b.session.language :=
    Classical.not_not.mp fun h => nomatch hlanguage.symm.trans ((hlanguages true).mpr h)
  exact ⟨hsent.mp hload, hextract, (htree .checkAll (by simp [markActions])).mp hmarks, hunheeded,
    hstill .abort (by simp [quietActions]) habort, hsame⟩

end Browser

end InstallerBrowser
