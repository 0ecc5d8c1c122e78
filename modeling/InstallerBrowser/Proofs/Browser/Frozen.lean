import InstallerBrowser.Proofs.Browser.Calls

/-!
# InstallerBrowser.Proofs.Browser.Frozen

What stays as it is while the engine works.

From the moment a request for an extraction is sent until a tick handles its end, no event changes
what is being extracted, nor the queue and the options (`frozen_run`).  The guards for that stand in
many places: each effect of an event either asks for an unlocked state or touches only what may
change.  `Held` says what may not, and `Working` is the state of the browser that every event keeps
until then.
-/

namespace InstallerBrowser

/-- Opening and closing nodes leaves the check marks alone. -/
theorem SelectionTree.step_of_onlyOpens (t : SelectionTree) {op : SelectionTree.Operation}
    (h : Session.onlyOpens op = true) : ∃ expanded, t.step op = { t with expanded } := by
  have hopen : ∀ key mark, ∃ expanded, t.setOpen key mark = { t with expanded } := by
    intro key mark
    unfold setOpen
    split
    · exact ⟨_, rfl⟩
    · exact ⟨_, rfl⟩
  cases op with
  | expand key => exact hopen key true
  | collapse key => exact hopen key false
  | toggleExpanded key => exact hopen key _
  | check _ | uncheck _ | toggle _ | checkAll | uncheckAll => cases h

/-- Whether an event of the worker ends a call. -/
def WorkerEvent.endsCall : WorkerEvent → Bool
  | .notice _ => false
  | .reply _ _ | .stopped => true

namespace Session

variable {s : Session}

theorem onEvents_of_notices (s : Session) (events : List WorkerEvent)
    (h : events.any WorkerEvent.endsCall = false) : ∃ progress log,
      (s.onEvents events).1 = { s with progress, log } ∧
        ∀ o, Browser.heed o (s.onEvents events).2 = o := by
  induction events generalizing s with
  | nil => exact ⟨_, _, rfl, fun _ => rfl⟩
  | cons event rest ih =>
      cases event with
      | reply _ _ | stopped => cases h
      | notice notice =>
          obtain ⟨progress, log, heq, htold⟩ := onNotice_cases s notice
          obtain ⟨progress', log', hrest, hheed⟩ := ih { s with progress, log } h
          rw [onEvents_cons, onEvent, heq]
          refine ⟨progress', log', hrest, fun o => ?_⟩
          rw [Browser.heed, List.foldl_append]
          refine Eq.trans ?_ (hheed o)
          congr 1
          rcases htold with ⟨text, h⟩ | ⟨percent, h⟩ | h
          all_goals
            rw [h]
            rfl

end Session

namespace Browser

variable {b b' c c' d : Browser} {event : Event} {request : ExtractionRequest}

/-! ## What is held -/

/-- Whether an event handles the end of a call. -/
def delivers (b : Browser) : Event → Bool
  | .tick => b.session.worker.poll.2.any WorkerEvent.endsCall
  | _ => false

/-- Whether no event of a run handles the end of a call. -/
def undelivered (b : Browser) : List Event → Bool
  | [] => true
  | event :: rest => !b.delivers event && (b.step event).undelivered rest

/-- What stays while an extraction is under way: all but the open nodes, the selection in the queue,
what is on screen, the log, the progress, the state, the worker, the files, and for a browser that
quits the output. -/
structure Held (b c : Browser) : Prop where
  session : ∃ worker files log state tree output progress,
    c.session = { b.session with worker, files, log, state, tree, output, progress }
  tree : ∀ tree, b.session.tree = some tree →
    ∃ expanded, c.session.tree = some { tree with expanded }
  output : c.session.output = b.session.output ∨ c.shouldQuit = true
  files : c.queue.files = b.queue.files
  options : c.options = b.options
  pending : c.driftCheckPending = b.driftCheckPending
  defaults : c.defaultOptions = b.defaultOptions
  theme : c.theme = b.theme
  home : c.home = b.home
  logDir : c.logDir = b.logDir
  quitting : b.shouldQuit = true → c.shouldQuit = true

namespace Held

theorem refl (b : Browser) : Held b b :=
  ⟨⟨_, _, _, _, _, _, _, rfl⟩, fun tree h => ⟨tree.expanded, h⟩, .inl rfl, rfl, rfl, rfl, rfl, rfl,
    rfl, rfl, id⟩

theorem trans (h : Held b c) (h' : Held c d) : Held b d where
  session := by
    obtain ⟨_, _, _, _, _, _, _, heq⟩ := h.session
    obtain ⟨_, _, _, _, _, _, _, heq'⟩ := h'.session
    rw [heq', heq]
    exact ⟨_, _, _, _, _, _, _, rfl⟩
  tree := fun tree htree => by
    obtain ⟨expanded, hopen⟩ := h.tree tree htree
    obtain ⟨expanded', hopen'⟩ := h'.tree _ hopen
    exact ⟨expanded', hopen'⟩
  output := by
    rcases h'.output with hsame | hquit
    · rw [hsame]
      exact h.output.imp_right h'.quitting
    · exact .inr hquit
  files := h'.files.trans h.files
  options := h'.options.trans h.options
  pending := h'.pending.trans h.pending
  defaults := h'.defaults.trans h.defaults
  theme := h'.theme.trans h.theme
  home := h'.home.trans h.home
  logDir := h'.logDir.trans h.logDir
  quitting := h'.quitting ∘ h.quitting

end Held

/-- A step of the session that leaves the tree and the output alone. -/
theorem held_of_session (b : Browser) (worker : Worker) (files : FileStore) (log : Log)
    (state : SessionState) (progress : Progress) :
    Held b { b with session := { b.session with worker, files, log, state, progress } } :=
  { Held.refl b with session := ⟨_, _, _, _, _, _, _, rfl⟩ }

theorem Alike.held (h : Alike b c) : Held b c := by
  obtain ⟨log, files, hsession⟩ := h.session
  refine ⟨⟨_, _, _, _, _, _, _, hsession⟩, fun tree htree => ⟨tree.expanded, ?_⟩, .inl ?_, ?_,
    h.options, h.pending, h.defaults, h.theme, h.home, h.logDir, fun hquit => ?_⟩
  · rw [hsession]
    exact htree
  · rw [hsession]
  · rw [h.queue]
  · rw [h.quitting, hquit]

/-- The browser while an extraction is under way. -/
structure Working (b : Browser) : Prop where
  state : b.session.state = .extracting ∨ b.session.state = .aborting
  slot : b.session.inFlight = some .extract

theorem Working.isLocked (h : Working b) : b.session.state.isLocked = true := by
  rcases h.state with h | h
  · rw [h]
    rfl
  · rw [h]
    rfl

theorem Working.alike (h : Working b) (halike : Alike b c) : Working c :=
  ⟨halike.state ▸ h.state, halike.inFlight.trans h.slot⟩

/-- What is under way goes on, and what it is about stays. -/
structure GoesOn (b c : Browser) : Prop where
  working : Working c
  held : Held b c

/-! ## Effects -/

namespace Working

theorem passed {step : Session.Step} (h : Working b) (hstep : Passed b step) :
    GoesOn b { b with session := b.session.step step } := by
  have hsame : ∀ {s : Session}, s = b.session → GoesOn b { b with session := s } := by
    rintro s rfl
    exact ⟨h, .refl b⟩
  have hunready : b.session.state ≠ .ready := by
    intro hready
    have hlocked := h.isLocked
    rw [hready] at hlocked
    cases hlocked
  cases hstep with
  | extract => exact hsame (by rw [Session.step, Session.extract_of_busy h.slot])
  | abort =>
      rcases Session.abort_cases b.session with heq | ⟨_, hslot, progress, log, heq⟩
      · exact hsame (by rw [Session.step, heq])
      · rw [Session.step, heq]
        exact ⟨⟨.inr rfl, hslot⟩, held_of_session b _ _ _ _ _⟩
  | selectLanguage i hready => exact absurd hready hunready
  | changeTree op =>
      cases hop : Session.onlyOpens op with
      | false =>
          -- Check marks can be changed in a session that is ready, and this one is not.
          have hnone : b.session.editableTree = none := if_neg hunready
          exact hsame (by simp [Session.step, Session.changeTree, hop, hnone])
      | true =>
          cases htree : b.session.tree with
          | none => exact hsame (by simp [Session.step, Session.changeTree, hop, htree])
          | some tree =>
              obtain ⟨expanded, hopen⟩ := tree.step_of_onlyOpens hop
              have hstep : b.session.step (.changeTree op) =
                  { b.session with tree := some { tree with expanded } } := by
                simp [Session.step, Session.changeTree, hop, htree, hopen, Session.setTree]
              rw [hstep]
              have hheld : ∀ tree', b.session.tree = some tree' → ∃ opened,
                  some { tree with expanded } = some { tree' with expanded := opened } := by
                intro tree' htree'
                cases htree.symm.trans htree'
                exact ⟨expanded, rfl⟩
              exact ⟨⟨h.state, h.slot⟩,
                { Held.refl b with session := ⟨_, _, _, _, _, _, _, rfl⟩, tree := hheld }⟩

theorem effect (h : Working b) (heffect : Effect b c) : GoesOn b c := by
  have hunlocked : b.session.state.isLocked ≠ false := by simp [h.isLocked]
  cases heffect with
  | nothing => exact ⟨h, .refl b⟩
  | moved queue hfiles => exact ⟨⟨h.state, h.slot⟩, { Held.refl b with files := hfiles }⟩
  | passed step hstep => exact h.passed hstep
  | added _ hstate | changed _ hstate _ | checked _ _ hstate _ _ => exact absurd hstate hunlocked
  | loaded f _ hok =>
      rw [Session.load_of_busy h.slot] at hok
      cases hok
  | unloaded f _ _ =>
      rw [Session.load_of_busy h.slot]
      exact ⟨h, .refl b⟩
  | quit =>
      obtain ⟨_, files, output, heq⟩ := Session.shutdown_eq b.session
      rw [heq]
      exact ⟨⟨h.state, h.slot⟩,
        { Held.refl b with
          session := ⟨_, _, _, _, _, _, _, rfl⟩, output := .inr rfl, quitting := fun _ => rfl }⟩

theorem removal (h : Working b) (hremoval : Removal b c) : GoesOn b c := by
  have hunlocked : b.session.state.isLocked ≠ false := by simp [h.isLocked]
  cases hremoval with
  | nothing _ => exact ⟨h, .refl b⟩
  | kept hstate _ _ _ | discarded hstate _ _ _ _ | stranded hstate _ _ _ _ =>
      exact absurd hstate hunlocked

/-- A poll that handles no end changes the progress and the log. -/
theorem polled (h : Working b) (hnone : b.delivers .tick = false) : GoesOn b b.polled := by
  obtain ⟨progress, log, heq, hheed⟩ :=
    Session.onEvents_of_notices b.session.drained b.session.worker.poll.2 hnone
  have hsession : b.session.poll.1 = { b.session.drained with progress, log } := heq
  have hoptions : heed b.options b.session.poll.2 = b.options := hheed b.options
  rw [Browser.polled, hsession, hoptions]
  exact ⟨⟨h.state, h.slot⟩, held_of_session b _ _ _ _ _⟩

theorem ticked (h : Working b) (hnone : b.delivers .tick = false) (hticked : Ticked b c) :
    GoesOn b c := by
  have hpolled := h.polled hnone
  cases hticked with
  | polled _ => exact hpolled
  | asked _ hasked =>
      -- The slot is not free, so the question still has to wait.
      cases hasked with
      | waits _ => exact hpolled
      | sent hfree _ _ | refused hfree _ _ =>
          cases hpolled.working.slot.symm.trans hfree

/-- Until its end is handled, an extraction goes on, and what it is about stays. -/
theorem step (h : Working b) (hnone : b.delivers event = false) : GoesOn b (b.step event) := by
  cases stepped b event with
  | removes _ hremoval hshown =>
      have hc := h.removal hremoval
      exact ⟨hc.working.alike hshown, hc.held.trans hshown.held⟩
  | acts action heq =>
      rw [heq]
      exact ⟨⟨h.state, h.slot⟩, held_of_session b _ _ _ _ _⟩
  | ticks htick hticked hshown =>
      have hc := h.ticked (htick ▸ hnone) hticked
      exact ⟨hc.working.alike hshown, hc.held.trans hshown.held⟩
  | does _ _ hdoes =>
      obtain ⟨b', c', hbefore, heffect, hafter⟩ := hdoes
      have hc := (h.alike hbefore).effect heffect
      exact ⟨hc.working.alike hafter, (hbefore.held.trans hc.held).trans hafter.held⟩

theorem run {events : List Event} (h : Working b) (hnone : b.undelivered events = true) :
    GoesOn b (b.run events) := by
  induction events generalizing b with
  | nil => exact ⟨h, .refl b⟩
  | cons event rest ih =>
      rw [undelivered, Bool.and_eq_true, Bool.not_eq_true'] at hnone
      have hfirst := h.step hnone.1
      have hrest := ih hfirst.working hnone.2
      exact ⟨hrest.working, hfirst.held.trans hrest.held⟩

end Working

/-! ## The start -/

/-- An extraction is under way, for a request that says what is chosen. -/
structure Begun (b : Browser) (request : ExtractionRequest) : Prop where
  working : Working b
  tree : ∃ tree, b.session.tree = some tree ∧
    tree.checkedSet = { files := request.files, dirs := request.dirs }
  language : b.session.selectedLanguage.map (·.code) = request.language

theorem Begun.held (h : Begun b request) (hgoes : GoesOn b c) : Begun c request where
  working := hgoes.working
  tree := by
    obtain ⟨tree, htree, hchosen⟩ := h.tree
    obtain ⟨expanded, hopen⟩ := hgoes.held.tree tree htree
    exact ⟨_, hopen, hchosen⟩
  language := by
    obtain ⟨_, _, _, _, _, _, _, heq⟩ := hgoes.held.session
    rw [heq]
    exact h.language

theorem not_mem_newCalls (hcalls : c.session.worker.calls = b.session.worker.calls)
    (call : EngineCall) : call ∉ newCalls b c := by
  rw [newCalls_eq_nil hcalls]
  exact List.not_mem_nil

theorem Asked.extract_not_mem (h : Asked b c) : .extract request ∉ newCalls b c := by
  cases h with
  | waits _ => exact not_mem_newCalls rfl _
  | refused _ _ _ => exact not_mem_newCalls rfl _
  | sent _ _ halive =>
      rw [newCalls_eq (Worker.calls_send_of_alive halive _)]
      simp

theorem begun_of_passed {step : Session.Step} (hstep : Passed b step)
    (hmem : .extract request ∈ newCalls b { b with session := b.session.step step }) :
    Begun { b with session := b.session.step step } request := by
  cases hstep with
  | extract =>
      have hextract := Session.extractResult b.session
      simp only [Session.step] at hmem ⊢
      generalize b.session.extract = r at hextract hmem
      cases hextract with
      | busy _ | unready _ _ | unopened _ _ _ => exact absurd hmem (not_mem_newCalls rfl _)
      | refused log _ _ _ hdead =>
          exact absurd hmem (not_mem_newCalls (Worker.calls_send_of_dead hdead _) _)
      | sent progress log _ htree _ halive =>
          rw [newCalls_eq (Worker.calls_send_of_alive halive _), List.mem_singleton] at hmem
          cases hmem
          refine ⟨⟨.inl rfl, rfl⟩, ⟨_, ?_, rfl⟩, rfl⟩
          simp only [Session.editableTree] at htree
          split at htree
          · exact htree
          · cases htree
  | abort =>
      refine absurd hmem (not_mem_newCalls ?_ _)
      rcases Session.abort_cases b.session with heq | ⟨_, _, progress, log, heq⟩
      · rw [Session.step, heq]
      · rw [Session.step, heq]
        rfl
  | changeTree op =>
      exact absurd hmem (not_mem_newCalls
        (congrArg Worker.calls (Session.quiet_changeTree b.session op).worker) _)
  | selectLanguage i _ =>
      exact absurd hmem (not_mem_newCalls
        (congrArg Worker.calls (Session.quiet_selectLanguage b.session i).worker) _)

theorem begun_of_effect (heffect : Effect b c) (hmem : .extract request ∈ newCalls b c) :
    Begun c request := by
  cases heffect with
  | nothing | moved _ _ | added _ _ | changed _ _ _ => exact absurd hmem (not_mem_newCalls rfl _)
  | passed step hstep => exact begun_of_passed hstep hmem
  | loaded f _ hok =>
      rw [newCalls_eq (calls_load_of_ok hok), List.mem_singleton] at hmem
      cases hmem
  | unloaded f _ herror =>
      exact absurd hmem (not_mem_newCalls (congrArg Worker.calls (worker_load_of_error herror).1) _)
  | checked o _ _ _ hasked => exact absurd hmem hasked.extract_not_mem
  | quit =>
      obtain ⟨_, files, output, heq⟩ := Session.shutdown_eq b.session
      refine absurd hmem (not_mem_newCalls ?_ _)
      rw [heq]

theorem Ticked.extract_not_mem (h : Ticked b c) : .extract request ∉ newCalls b c := by
  obtain ⟨calls, hcalls, hkinds⟩ := calls_polled b
  have hnone : .extract request ∉ calls := fun hmem => by cases hkinds _ hmem
  cases h with
  | polled _ => rwa [newCalls_eq hcalls]
  | asked _ hasked =>
      cases hasked with
      | waits _ => rwa [newCalls_eq hcalls]
      | refused _ _ _ =>
          rw [newCalls_eq]
          · exact hnone
          · exact hcalls
      | sent _ _ halive =>
          have hsent := Worker.calls_send_of_alive halive (.optionsDiffer b.polled.options.live)
          rw [hcalls, List.append_assoc] at hsent
          rw [newCalls_eq hsent]
          simpa using hnone

/-- The event that sends a request for an extraction begins it. -/
theorem begun_step (hmem : .extract request ∈ b.sent event) : Begun (b.step event) request := by
  cases stepped b event with
  | removes _ hremoval hshown =>
      refine absurd hmem (not_mem_newCalls ?_ _)
      rw [hshown.worker, hremoval.unasked.2.2.1]
  | acts action heq =>
      rw [heq, sent_worker] at hmem
      cases hmem
  | ticks _ hticked hshown =>
      rw [sent_eq_of_alike (.refl b) hshown] at hmem
      exact absurd hmem hticked.extract_not_mem
  | does _ _ hdoes =>
      obtain ⟨b', c', hbefore, heffect, hafter⟩ := hdoes
      rw [sent_eq_of_alike hbefore hafter] at hmem
      have hbegun := begun_of_effect heffect hmem
      exact hbegun.held ⟨hbegun.working.alike hafter, hafter.held⟩

/-! ## While anything is locked -/

/-- While a call locks them, no event changes the queue or the options. -/
structure Locked (b c : Browser) : Prop where
  files : c.queue.files = b.queue.files
  live : c.options.live = b.options.live

theorem Alike.locked (h : Alike b c) : Locked b c := ⟨by rw [h.queue], by rw [h.options]⟩

theorem Locked.trans (h : Locked b c) (h' : Locked c d) : Locked b d :=
  ⟨h'.files.trans h.files, h'.live.trans h.live⟩

theorem Ticked.locked (h : Ticked b c) : Locked b c := by
  obtain ⟨_, heq⟩ := heed_eq b.options b.session.poll.2
  have hpolled : Locked b b.polled := ⟨rfl, by rw [Browser.polled, heq]⟩
  cases h with
  | polled _ => exact hpolled
  | asked _ hasked =>
      cases hasked with
      | waits _ => exact hpolled
      | sent _ _ _ => exact ⟨hpolled.files, hpolled.live⟩
      | refused _ _ _ => exact ⟨hpolled.files, hpolled.live⟩

theorem Effect.locked (h : Effect b c) (hstate : b.session.state.isLocked = true) :
    Locked b c := by
  have hunlocked : b.session.state.isLocked ≠ false := by simp [hstate]
  cases h with
  | nothing | passed _ _ | unloaded _ _ _ | quit | loaded _ _ _ => exact ⟨rfl, rfl⟩
  | moved _ hfiles => exact ⟨hfiles, rfl⟩
  | added _ hfree | changed _ hfree _ | checked _ _ hfree _ _ => exact absurd hfree hunlocked

theorem locked_step (event : Event) (hstate : b.session.state.isLocked = true) :
    Locked b (b.step event) := by
  have hunlocked : b.session.state.isLocked ≠ false := by simp [hstate]
  cases stepped b event with
  | removes _ hremoval hshown =>
      cases hremoval with
      | nothing _ => exact hshown.locked
      | kept hfree _ _ _ | discarded hfree _ _ _ _ | stranded hfree _ _ _ _ =>
          exact absurd hfree hunlocked
  | acts action heq =>
      rw [heq]
      exact ⟨rfl, rfl⟩
  | ticks _ hticked hshown => exact hticked.locked.trans hshown.locked
  | does _ _ hdoes =>
      obtain ⟨b', c', hbefore, heffect, hafter⟩ := hdoes
      exact (hbefore.locked.trans (heffect.locked (hbefore.state ▸ hstate))).trans hafter.locked

/-! ## Runs -/

/-- What a request is about stays from one browser to a later one: what is chosen in the tree, and
the language, are those of the request, and the rest is as it was. -/
structure Frozen (request : ExtractionRequest) (b c : Browser) : Prop where
  state : c.session.state = .extracting ∨ c.session.state = .aborting
  chosen : ∃ tree, c.session.tree = some tree ∧
    tree.checkedSet = { files := request.files, dirs := request.dirs }
  language : c.session.selectedLanguage.map (·.code) = request.language
  files : c.queue.files = b.queue.files
  live : c.options.live = b.options.live
  held : Held b c

/-- **What the engine works on is frozen**: from the event that sends a request for an extraction,
for any events of which none handles its end, the session extracts or aborts, what is chosen in the
tree, and the language, are those of the request, and all that `Held` lists is as it was; and while
an installer is being loaded no event changes the files in the queue or the live options. -/
theorem frozen_run (b : Browser) :
    (∀ event request during, .extract request ∈ b.sent event →
        (b.step event).undelivered during = true →
        Frozen request (b.step event) ((b.step event).run during)) ∧
      (b.session.state = .loading → ∀ event,
        (b.step event).queue.files = b.queue.files ∧
          (b.step event).options.live = b.options.live) := by
  refine ⟨fun event request during hmem hnone => ?_, fun hstate event => ?_⟩
  · have hbegun := begun_step hmem
    have hgoes := hbegun.working.run hnone
    have hend := hbegun.held hgoes
    exact ⟨hend.working.state, hend.tree, hend.language, hgoes.held.files,
      congrArg OptionsState.live hgoes.held.options, hgoes.held⟩
  · have hlocked := locked_step event (show b.session.state.isLocked = true by rw [hstate]; rfl)
    exact ⟨hlocked.files, hlocked.live⟩

/-- Keys, a removal, a changed option and an abort, while the engine tells of its progress. -/
def busyEvents : List Event :=
  [ .key { code := .tab }, .action .uncheckAll, .action .removeFile, .toggleOption .excludeTemps
  , .worker .take, .worker (.notify (.progress 40)), .tick, .abortExtraction ]

/-- The request for the one file that is checked. -/
def fileRequest : ExtractionRequest :=
  { files := [1], dirs := [], language := none, output := "out/setup.zip.part" }

theorem frozen_run_busy :
    let b := (new {} atHome "out" setupFiles).run setupEvents
    let start := b.step (.action .extract)
    .extract fileRequest ∈ b.sent (.action .extract) ∧ start.undelivered busyEvents = true ∧
      Frozen fileRequest start (start.run busyEvents) := by
  intro b start
  have hsent : b.sent (.action .extract) = [.extract fileRequest] := by decide +kernel
  have hmem : .extract fileRequest ∈ b.sent (.action .extract) :=
    hsent ▸ List.mem_singleton_self _
  have hnone : start.undelivered busyEvents = true := by decide +kernel
  exact ⟨hmem, hnone, (frozen_run b).1 (.action .extract) fileRequest busyEvents hmem hnone⟩

/-- While an extraction is under way the focus and the progress do move. -/
theorem not_frozen_progress :
    let start := (new {} atHome "out" setupFiles).run (setupEvents ++ [.action .extract])
    let c := start.run
      [.key { code := .tab }, .worker .take, .worker (.notify (.progress 40)), .tick]
    start.session.state = .extracting ∧ c.session.state = .extracting ∧
      start.layout.focus = .tree ∧ c.layout.focus = .queue ∧
      start.session.progress.percent = 0 ∧ c.session.progress.percent = 40 := by
  intro start c
  exact ⟨by decide +kernel, by decide +kernel, by decide +kernel, by decide +kernel,
    by decide +kernel, by decide +kernel⟩

end Browser

end InstallerBrowser
