import InstallerBrowser.Proofs.Session.Stage
import InstallerBrowser.Proofs.Tree.Runs

/-!
# InstallerBrowser.Proofs.Session.Tree

Where the tree of a session comes from.

Only a listing that is handled brings a tree, and the session tells of it (`Planted`); all else
keeps the tree, drops it (`Spared`) or operates on it.  So the tree of a session is that of a
listing after some operations (`GrownTree.step`), and what holds of such trees holds of it.
-/

namespace InstallerBrowser

namespace SelectionTree

variable {t : SelectionTree}

/-- The tree of a listing after some operations. -/
def Grown (t : SelectionTree) : Prop :=
  ∃ entries built ops, build entries = .ok built ∧ t = built.run ops

theorem grown_build {entries : List Entry} (hb : build entries = .ok t) : t.Grown :=
  ⟨entries, t, [], hb, rfl⟩

theorem Grown.step (h : t.Grown) (op : Operation) : (t.step op).Grown := by
  obtain ⟨entries, built, ops, hb, rfl⟩ := h
  exact ⟨entries, built, ops ++ [op], hb, by rw [run, run, List.foldl_append]; rfl⟩

theorem Grown.consistent (h : t.Grown) : t.Consistent := by
  obtain ⟨entries, built, ops, hb, rfl⟩ := h
  exact consistent_run hb ops

end SelectionTree

namespace Session

variable {s t : Session}

/-- The tree is kept, or dropped. -/
def Spared (before after : Option SelectionTree) : Prop := after = before ∨ after = none

/-! ## Operations -/

theorem spared_load (s : Session) (file : String) (options : Options) :
    Spared s.tree (s.load file options).1.tree := by
  have hload := loadResult s file options
  generalize s.load file options = r at hload
  cases hload with
  | busy _ | locked _ _ => exact .inl rfl
  | refused _ _ _ | sent _ _ _ _ => exact .inr rfl

theorem spared_discardInstaller (s : Session) : Spared s.tree s.discardInstaller.1.tree := by
  rcases discardInstaller_cases s with ⟨e, heq⟩ | ⟨_, _, log, heq⟩
  · rw [heq]
    exact .inl rfl
  · rw [heq]
    exact .inr rfl

@[simp] theorem tree_extract (s : Session) : s.extract.1.tree = s.tree := by
  have hextract := extractResult s
  generalize s.extract = r at hextract
  cases hextract with
  | busy _ | unready _ _ | unopened _ _ _ | refused _ _ _ _ _ | sent _ _ _ _ _ _ => rfl

@[simp] theorem tree_abort (s : Session) : s.abort.1.tree = s.tree := by
  rcases abort_cases s with heq | ⟨_, _, progress, log, heq⟩
  · rw [heq]
  · rw [heq]

@[simp] theorem tree_checkOptions (s : Session) (options : Options) :
    (s.checkOptions options).1.tree = s.tree := by
  have hcheck := checkResult s options
  generalize s.checkOptions options = r at hcheck
  cases hcheck with
  | busy _ | refused _ _ | sent _ _ => rfl

@[simp] theorem tree_selectLanguage (s : Session) (i : Nat) :
    (s.selectLanguage i).1.tree = s.tree := by
  rcases selectLanguage_cases s i with heq | ⟨_, heq⟩
  · rw [heq]
  · rw [heq]

@[simp] theorem tree_shutdown (s : Session) : s.shutdown.tree = s.tree := by
  obtain ⟨_, files, output, heq⟩ := shutdown_eq s
  rw [heq]

/-! ## What was sent -/

/-- What becomes of the tree where a session handles what was sent: it is kept or dropped, or a
listing brings another, and the session tells of it. -/
inductive Planted (before : Option SelectionTree) :
    Option SelectionTree → List SessionEvent → Prop
  | spared {after events} : Spared before after → Planted before after events
  | listed {events entries tree name} : SelectionTree.build entries = .ok tree →
      .loaded name tree.size ∈ events → Planted before (some tree) events

/-- What comes of handling some events and then more. -/
theorem Planted.append {before middle after : Option SelectionTree}
    {events more : List SessionEvent} (h : Planted before middle events)
    (h' : Planted middle after more) :
    Planted before after (events ++ more) := by
  cases h' with
  | listed hbuild hmem => exact .listed hbuild (List.mem_append_right _ hmem)
  | spared hspared =>
      rcases hspared with rfl | rfl
      · cases h with
        | spared hspared => exact .spared hspared
        | listed hbuild hmem => exact .listed hbuild (List.mem_append_left _ hmem)
      · exact .spared (.inr rfl)

theorem spared_afterFailure (s : Session) (kind : CallKind) :
    Spared s.tree (s.afterFailure kind).tree := by
  cases kind with
  | load | list => exact .inr rfl
  | extract | optionsDiffer => exact .inl rfl

theorem planted_onEvent (s : Session) (event : WorkerEvent) :
    Planted s.tree (s.onEvent event).1.tree (s.onEvent event).2 := by
  cases event with
  | notice notice =>
      obtain ⟨progress, log, heq, _⟩ := onNotice_cases s notice
      rw [onEvent, heq]
      exact .spared (.inl rfl)
  | stopped =>
      rcases onEvent_stopped_cases s with ⟨_, heq⟩ | ⟨kind, _, heq⟩
      · rw [heq]
        exact .spared (.inl rfl)
      · rw [heq]
        exact .spared (spared_afterFailure _ kind)
  | reply kind result =>
      have hreply := replyResult s kind result
      generalize s.onEvent (.reply kind result) = r at hreply
      cases hreply with
      | faulty _ => exact .spared (spared_afterFailure _ kind)
      | unlisted _ _ _ => exact .spared (.inr rfl)
      | listed _ _ hbuild => exact .listed hbuild List.mem_cons_self
      | loaded _ _ _ _ _ | completed _ _ _ _ _ | uncommitted _ _ | aborted _ _ _
      | undiscarded _ _ | answered _ => exact .spared (.inl rfl)

theorem planted_onEvents (s : Session) (events : List WorkerEvent) :
    Planted s.tree (s.onEvents events).1.tree (s.onEvents events).2 := by
  induction events generalizing s with
  | nil => exact .spared (.inl rfl)
  | cons event rest ih => exact (planted_onEvent s event).append (ih (s.onEvent event).1)

theorem planted_poll (s : Session) : Planted s.tree s.poll.1.tree s.poll.2 :=
  planted_onEvents s.drained s.worker.poll.2

/-! ## Grown trees -/

/-- The tree, if there is one, is that of a listing after some operations. -/
def GrownTree (s : Session) : Prop := ∀ tree, s.tree = some tree → tree.Grown

theorem GrownTree.spared (h : GrownTree s) (hspared : Spared s.tree t.tree) : GrownTree t := by
  intro tree htree
  rcases hspared with hsame | hnone
  · exact h tree (hsame ▸ htree)
  · cases hnone.symm.trans htree

theorem GrownTree.poll (h : GrownTree s) : GrownTree s.poll.1 := by
  have hplanted := planted_poll s
  generalize htree : s.poll.1.tree = after at hplanted
  cases hplanted with
  | spared hspared => exact h.spared (htree ▸ hspared)
  | listed hbuild _ =>
      intro tree htree'
      cases htree.symm.trans htree'
      exact SelectionTree.grown_build hbuild

/-- No step brings a tree of any other kind. -/
theorem GrownTree.step (h : GrownTree s) (step : Step) : GrownTree (s.step step) := by
  cases step with
  | load file options => exact h.spared (spared_load s file options)
  | extract => exact h.spared (.inl (tree_extract s))
  | abort => exact h.spared (.inl (tree_abort s))
  | checkOptions options => exact h.spared (.inl (tree_checkOptions s options))
  | selectLanguage i => exact h.spared (.inl (tree_selectLanguage s i))
  | discardInstaller => exact h.spared (spared_discardInstaller s)
  | changeTree op =>
      rcases changeTree_cases s op with heq | ⟨tree, htree, heq⟩
      · rw [Session.step, heq]
        exact h
      · rw [Session.step, heq]
        intro tree' htree'
        cases htree'
        exact (h tree htree).step op
  | poll => exact h.poll
  | shutdown => exact h.spared (.inl (tree_shutdown s))
  | worker _ | storage _ => exact h

end Session

end InstallerBrowser
