import InstallerBrowser.Proofs.Browser.Answers

/-!
# InstallerBrowser.Proofs.Browser.Tracking

When the engine is asked on the options.

A browser compares the live options with those of the last load that was started, whatever came of
that load.  Until a load is started nothing is compared (`Fresh`), and the first one that is
changes this for good: neither its failure nor the installer's removal goes back
(`needsDriftCheck_effect`).  So questions are sent, and a reload may be called for, also where there
is no installer, exactly if a load was started at all (`tracking_run`).
-/

namespace InstallerBrowser.Browser

variable {b b' c c' : Browser} {event : Event} {events : List Event}

/-! ## Loads -/

/-- Whether one of the events of a run sends a call for a load. -/
def startsLoad (b : Browser) : List Event → Bool
  | [] => false
  | event :: rest => (b.sent event).any (·.kind == .load) || (b.step event).startsLoad rest

theorem lastLoaded_polled (b : Browser) : b.polled.options.lastLoaded = b.options.lastLoaded := by
  obtain ⟨_, heq⟩ := heed_eq b.options b.session.poll.2
  rw [polled, heq]

theorem Asked.options_eq (h : Asked b c) : c.options = b.options := by
  cases h with
  | waits _ | sent _ _ _ | refused _ _ _ => rfl

/-- What was started to compare with is compared with from then on. -/
theorem needsDriftCheck_effect (hneeds : b.options.needsDriftCheck = true)
    (heffect : Effect b c) : c.options.needsDriftCheck = true := by
  cases heffect with
  | nothing | moved _ _ | added _ _ | passed _ _ | unloaded _ _ _ | changed _ _ _ | quit =>
      exact hneeds
  | loaded _ _ _ => rfl
  | checked o _ _ _ hasked =>
      rw [hasked.options_eq]
      exact hneeds

theorem needsDriftCheck_ticked (hneeds : b.options.needsDriftCheck = true)
    (hticked : Ticked b c) : c.options.needsDriftCheck = true := by
  cases hticked with
  | polled _ => rwa [OptionsState.needsDriftCheck, lastLoaded_polled]
  | asked _ hasked => rwa [hasked.options_eq, OptionsState.needsDriftCheck, lastLoaded_polled]

theorem needsDriftCheck_step (event : Event) (hneeds : b.options.needsDriftCheck = true) :
    (b.step event).options.needsDriftCheck = true := by
  cases stepped b event with
  | removes _ hremoval hshown =>
      rw [hshown.options, hremoval.unasked.1]
      exact hneeds
  | acts _ heq =>
      rw [heq]
      exact hneeds
  | ticks _ hticked hshown =>
      rw [hshown.options]
      exact needsDriftCheck_ticked hneeds hticked
  | does _ _ hdoes =>
      obtain ⟨b', c', hbefore, heffect, hafter⟩ := hdoes
      rw [hafter.options]
      exact needsDriftCheck_effect (hbefore.options ▸ hneeds) heffect

theorem needsDriftCheck_run (events : List Event) (hneeds : b.options.needsDriftCheck = true) :
    (b.run events).options.needsDriftCheck = true := by
  induction events generalizing b with
  | nil => exact hneeds
  | cons event rest ih => exact ih (needsDriftCheck_step event hneeds)

/-! ## Before the first load -/

/-- No load was started: there is nothing to compare with, and nothing was asked. -/
structure Fresh (b : Browser) : Prop where
  load : b.options.lastLoaded = none
  needed : b.options.reloadNeeded = false
  pending : b.driftCheckPending = false
  slot : b.session.inFlight ≠ some .optionsDiffer

theorem fresh_new (config : Config) (env : Config.Environment) (dir : String)
    (files : FileStore) : Fresh (new config env dir files) := ⟨rfl, rfl, rfl, nofun⟩

theorem Fresh.needs (h : Fresh b) : b.options.needsDriftCheck = false := by
  rw [OptionsState.needsDriftCheck, h.load]
  rfl

theorem Fresh.congr (h : Fresh b) (hoptions : c.options = b.options)
    (hpending : c.driftCheckPending = b.driftCheckPending)
    (hslot : c.session.inFlight = some .optionsDiffer ↔
      b.session.inFlight = some .optionsDiffer) : Fresh c :=
  ⟨hoptions ▸ h.load, hoptions ▸ h.needed, hpending.trans h.pending, mt hslot.mp h.slot⟩

theorem Fresh.alike (h : Fresh b) (halike : Alike b c) : Fresh c :=
  h.congr halike.options halike.pending (by rw [halike.inFlight])

theorem Fresh.polled (h : Fresh b) (horder : b.session.InOrder) : Fresh b.polled := by
  have hoptions : b.polled.options = b.options := by
    rw [options_polled, horder.slot.answersAmong_eq_nil h.slot]
    rfl
  exact ⟨hoptions ▸ h.load, hoptions ▸ h.needed, h.pending,
    Session.stable_noQuestion.poll horder.slot h.slot⟩

/-- Before the first load an event asks nothing, or starts a load. -/
inductive Fresh.Outcome (b c : Browser) : Prop
  | loads (file o) : newCalls b c = [.load file o] → c.options.needsDriftCheck = true →
      Fresh.Outcome b c
  | asksNothing : (∀ call ∈ newCalls b c, call.kind = .list ∨ call.kind = .extract) → Fresh c →
      Fresh.Outcome b c

theorem Fresh.sendsNothing (h : Fresh c)
    (hcalls : c.session.worker.calls = b.session.worker.calls) : Fresh.Outcome b c :=
  .asksNothing (by simp [newCalls_eq_nil hcalls]) h

theorem Fresh.effect (h : Fresh b) (heffect : Effect b c) : Fresh.Outcome b c := by
  cases heffect with
  | nothing => exact h.sendsNothing rfl
  | moved queue _ => exact Fresh.sendsNothing (h.congr rfl rfl .rfl) rfl
  | added files _ => exact Fresh.sendsNothing (h.congr rfl rfl .rfl) rfl
  | passed step hstep =>
      obtain ⟨calls, hcalls, hkinds⟩ := hstep.calls
      refine .asksNothing ?_ (h.congr rfl rfl hstep.slot.1)
      rw [newCalls_eq hcalls]
      exact fun call hcall => .inr (hkinds call hcall)
  | loaded f _ hok =>
      exact .loads f.path b.options.live (newCalls_eq (calls_load_of_ok hok)) rfl
  | unloaded f _ herror =>
      obtain ⟨hworker, hslot⟩ := worker_load_of_error herror
      exact Fresh.sendsNothing (h.congr rfl rfl (by rw [hslot])) (by rw [hworker])
  | changed o _ _ => exact Fresh.sendsNothing ⟨h.load, h.needed, h.pending, h.slot⟩ rfl
  | checked o _ _ hneeds _ => cases h.needs.symm.trans hneeds
  | quit =>
      obtain ⟨_, files, output, heq⟩ := Session.shutdown_eq b.session
      rw [heq]
      exact Fresh.sendsNothing ⟨h.load, h.needed, h.pending, h.slot⟩ rfl

theorem Fresh.ticked (h : Fresh b) (horder : b.session.InOrder) (hticked : Ticked b c) :
    Fresh.Outcome b c := by
  cases hticked with
  | asked hpending _ => cases h.pending.symm.trans hpending
  | polled _ =>
      obtain ⟨calls, hcalls, hkinds⟩ := calls_polled b
      refine .asksNothing ?_ (h.polled horder)
      rw [newCalls_eq hcalls]
      exact fun call hcall => .inl (hkinds call hcall)

/-- What is only shown tells no two outcomes apart. -/
theorem Fresh.Outcome.alike (h : Fresh.Outcome b' c') (hbefore : Alike b b') (hafter : Alike c' c) :
    Fresh.Outcome b c := by
  have hcalls : newCalls b c = newCalls b' c' :=
    newCalls_congr hbefore.worker.symm hafter.worker
  cases h with
  | loads file o hload hneeds => exact .loads file o (hcalls.trans hload) (hafter.options ▸ hneeds)
  | asksNothing hkinds hfresh => exact .asksNothing (hcalls ▸ hkinds) (hfresh.alike hafter)

theorem Fresh.step (h : Fresh b) (horder : b.session.InOrder) (event : Event) :
    Fresh.Outcome b (b.step event) := by
  cases stepped b event with
  | removes _ hremoval hshown =>
      obtain ⟨hoptions, hpending, hworker, hslot⟩ := hremoval.unasked
      refine Fresh.sendsNothing ((h.congr hoptions hpending (by rw [hslot])).alike hshown) ?_
      rw [hshown.worker, hworker]
  | acts action heq =>
      rw [heq]
      have hnone : newCalls b (b.step (.worker action)) = [] := sent_worker b action
      exact .asksNothing (by simp [hnone]) (h.congr rfl rfl .rfl)
  | ticks _ hticked hshown => exact (h.ticked horder hticked).alike (.refl b) hshown
  | does _ _ hdoes =>
      obtain ⟨b', c', hbefore, heffect, hafter⟩ := hdoes
      exact ((h.alike hbefore).effect heffect).alike hbefore hafter

theorem Fresh.sent_kind_ne (h : Fresh b) (horder : b.session.InOrder) (event : Event) :
    ∀ call ∈ b.sent event, call.kind ≠ .optionsDiffer := by
  intro call hcall
  cases h.step horder event with
  | loads file o hload _ =>
      rw [sent, hload, List.mem_singleton] at hcall
      rw [hcall]
      exact nofun
  | asksNothing hkinds _ =>
      rcases hkinds call hcall with hkind | hkind
      · simp [hkind]
      · simp [hkind]

/-- A run that starts no load leaves nothing to compare with; any other does for good. -/
theorem Fresh.run (h : Fresh b) (horder : b.session.InOrder) (events : List Event) :
    b.startsLoad events = false ∧ Fresh (b.run events) ∨
      b.startsLoad events = true ∧ (b.run events).options.needsDriftCheck = true := by
  induction events generalizing b with
  | nil => exact .inl ⟨rfl, h⟩
  | cons event rest ih =>
      rw [startsLoad, run_cons, sent]
      cases h.step horder event with
      | loads file o hload hneeds =>
          rw [hload]
          exact .inr ⟨rfl, needsDriftCheck_run rest hneeds⟩
      | asksNothing hkinds hfresh =>
          have hnone : (newCalls b (b.step event)).any (·.kind == .load) = false := by
            rw [List.any_eq_false]
            intro call hcall
            rcases hkinds call hcall with h | h <;> simp [h]
          rw [hnone, Bool.false_or]
          exact ih hfresh (session_step kept_inOrder event horder)

/-! ## After a load was started -/

/-- Changed options are asked about at once: there is a load to compare with, nothing is locked, the
slot is free and the worker lives. -/
structure Asks (b : Browser) : Prop where
  needs : b.options.needsDriftCheck = true
  state : b.session.state.isLocked = false
  free : b.session.inFlight = none
  alive : b.session.worker.alive = true

theorem Asks.newCalls_followDrift (h : Asks b) {o : Options}
    (halike : Alike { b with options := b.options.setOptions o } c) :
    newCalls b c.followDrift = [.optionsDiffer o] := by
  have hneeds : c.options.needsDriftCheck = true := by
    rw [halike.options]
    exact h.needs
  obtain ⟨d, hasked, hshown⟩ := asked_requestDriftCheck { c with driftCheckPending := true }
  rw [followDrift, if_pos hneeds]
  rcases hasked.of_alive (halike.worker ▸ h.alive) with ⟨rfl, hwaits⟩ | hasked
  · rcases hwaits with hbusy | hlocked
    · exact absurd (halike.inFlight.trans h.free) hbusy
    · rw [halike.state] at hlocked
      cases h.state.symm.trans hlocked
  · refine newCalls_eq ?_
    rw [hshown.worker, hasked.calls, halike.worker, halike.options]
    rfl

theorem Asks.sent_toggleOption (h : Asks b) (f : OptionField) :
    b.sent (.toggleOption f) = [.optionsDiffer (b.options.live.toggle f)] := by
  simp only [sent, step, toggleOption, h.state, Bool.false_eq_true, if_false]
  split
  · exact h.newCalls_followDrift (alike_mapLog _ _)
  · exact h.newCalls_followDrift (.refl _)

theorem Asks.sent_resetOptions (h : Asks b) (hne : b.options.live ≠ b.defaultOptions) :
    b.sent .resetOptions = [.optionsDiffer b.defaultOptions] := by
  simp only [sent, step, resetOptions, h.state, Bool.false_eq_true, if_false, if_neg hne]
  exact h.newCalls_followDrift ((alike_mapLog _ _).trans (alike_mapLog _ _))

/-- **What is tracked, and since when**: after any run there is a load to compare with exactly if
the run started one. Before that no reload is called for, and no event asks the engine on the
options. After that, whether or not the load succeeded and its installer is still there, options
that are changed or reset are asked about at once where nothing is locked, the slot is free and the
worker lives. -/
theorem tracking_run (config : Config) (env : Config.Environment) (dir : String)
    (files : FileStore) (events : List Event) :
    let start := new config env dir files
    let b := start.run events
    b.options.needsDriftCheck = start.startsLoad events ∧
      (start.startsLoad events = false →
        b.options.reloadNeeded = false ∧
          ∀ event, ∀ call ∈ b.sent event, call.kind ≠ .optionsDiffer) ∧
      (start.startsLoad events = true → b.session.state.isLocked = false →
        b.session.inFlight = none → b.session.worker.alive = true →
        (∀ f, b.sent (.toggleOption f) = [.optionsDiffer (b.options.live.toggle f)]) ∧
          (b.options.live ≠ b.defaultOptions →
            b.sent .resetOptions = [.optionsDiffer b.defaultOptions])) := by
  intro start b
  have horder : b.session.InOrder := inOrder_run config env dir files events
  have hstart : start.session.InOrder := inOrder_run config env dir files []
  rcases (fresh_new config env dir files).run hstart events with ⟨hnone, hfresh⟩ | ⟨hload, hneeds⟩
  · have hfresh : Fresh b := hfresh
    rw [show start.startsLoad events = false from hnone]
    refine ⟨hfresh.needs, fun _ => ⟨hfresh.needed, fun event => ?_⟩, nofun⟩
    exact hfresh.sent_kind_ne horder event
  · rw [show start.startsLoad events = true from hload]
    refine ⟨hneeds, nofun, fun _ hstate hfree halive => ?_⟩
    have hasks : Asks b := ⟨hneeds, hstate, hfree, halive⟩
    exact ⟨hasks.sent_toggleOption, hasks.sent_resetOptions⟩

/-- Options are changed before anything is loaded. -/
theorem tracking_run_queued :
    let start := new {} atHome "out" setupFiles
    let events : List Event := [.addFiles ["setup.exe"], .toggleOption .excludeTemps]
    start.startsLoad events = false ∧ (start.run events).options.reloadNeeded = false ∧
      ∀ event, ∀ call ∈ (start.run events).sent event, call.kind ≠ .optionsDiffer := by
  intro start events
  have hnone : start.startsLoad events = false := by decide +kernel
  exact ⟨hnone, (tracking_run {} atHome "out" setupFiles events).2.1 hnone⟩

/-- A load that the engine refuses. -/
def failedEvents : List Event :=
  [ .addFiles ["setup.exe"], .action .loadInstaller
  , .worker .take, .worker (.reply (.ok "\x7b\"error\":\"bad\"\x7d")), .tick ]

/-- An option is changed, which calls for a reload, and the installer's file is removed. -/
def removedEvents : List Event :=
  setupEvents ++
    [ .toggleOption .excludeTemps, .worker .take, .worker (.reply (.ok "true")), .tick
    , .action .removeFile ]

/-- After a first load that failed the engine is asked on the options, and after the installer was
given up a reload is still called for. -/
theorem not_untracked_withoutInstaller :
    let failed := (new {} atHome "out" setupFiles).run failedEvents
    let removed := (new {} atHome "out" setupFiles).run removedEvents
    (failed.session.state = .error ∧ failed.session.loadedFile = none ∧
        failed.sent (.toggleOption .excludeTemps) = [.optionsDiffer { excludeTemps := true }]) ∧
      removed.session.state = .idle ∧ removed.session.loadedFile = none ∧
        removed.options.reloadNeeded = true := by
  decide +kernel

end InstallerBrowser.Browser
