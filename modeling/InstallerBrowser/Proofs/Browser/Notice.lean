import InstallerBrowser.Proofs.Browser.Enabled
import InstallerBrowser.Proofs.Log
import InstallerBrowser.Proofs.Session.Logging
import InstallerBrowser.Proofs.Tree.Count

/-!
# InstallerBrowser.Proofs.Browser.Notice

The notice that nothing is checked.

Before an extraction a notice is logged if no checked file is counted; what is asked for is told by
the request.  `logsNotice_extractSelected` says what is logged, and `request_of_newCalls` what is
asked for.  The two are about the same for the trees of counted listings, and for these alone
(`notice_run`).
-/

namespace InstallerBrowser

/-! ## Lines -/

/-- The notice that nothing is checked. -/
def uncheckedNotice : String := "Nothing is checked; the engine decides what to write"

theorem extracting_ne_uncheckedNotice (s : String) : "Extracting " ++ s ≠ uncheckedNotice := by
  intro h
  have hfirst := congrArg (·.toList.head?) h
  simp [uncheckedNotice] at hfirst

/-- An extraction itself never logs the notice. -/
theorem Session.exists_lines_extract (s : Session) :
    ∃ lines, (LogLevel.info, uncheckedNotice) ∉ lines ∧ s.extract.1.log = s.log.logAll lines := by
  have hnone : ∃ lines, (LogLevel.info, uncheckedNotice) ∉ lines ∧ s.log = s.log.logAll lines :=
    ⟨[], List.not_mem_nil, rfl⟩
  unfold extract
  split
  · exact hnone
  · split
    · exact hnone
    · next tree _ =>
        simp only
        split
        · exact hnone
        · next files sink _ =>
            have hlogged : ∀ text, ∃ lines, (LogLevel.info, uncheckedNotice) ∉ lines ∧
                s.log.info ("Extracting " ++ text) = s.log.logAll lines := fun text =>
              ⟨[(.info, "Extracting " ++ text)],
                by simpa using (extracting_ne_uncheckedNotice text).symm, rfl⟩
            simp only [String.append_assoc]
            split
            all_goals
              next hdispatch =>
                have hlog := congrArg (·.1.log) hdispatch
                rw [Session.log_dispatch] at hlog
                rw [← hlog]
                exact hlogged _

namespace Browser

variable {b : Browser} {t tree : SelectionTree} {request : ExtractionRequest}

/-! ## What is said and what is asked for -/

/-- Extracting logs the notice first, or not at all. -/
def LogsNotice (b : Browser) (noticed : Bool) : Prop :=
  ∃ lines, (LogLevel.info, uncheckedNotice) ∉ lines ∧ b.extractSelected.log =
    b.log.logAll (if noticed then (.info, uncheckedNotice) :: lines else lines)

theorem log_announced (b : Browser) : b.announced.log =
    b.log.logAll (if b.nothingChecked then [(.info, uncheckedNotice)] else []) := by
  unfold announced
  split <;> rfl

/-- The notice is logged if there is a tree in which no checked file is counted. -/
theorem logsNotice_extractSelected (b : Browser) : b.LogsNotice b.nothingChecked := by
  obtain ⟨lines, hlines, hlog⟩ := b.announced.session.exists_lines_extract
  have hadd : ∀ more, b.announced.log.logAll more = b.log.logAll
      (if b.nothingChecked then (.info, uncheckedNotice) :: more else more) := fun more => by
    rw [log_announced, ← Log.logAll_append]
    split <;> rfl
  rcases hr : b.announced.session.extract with ⟨session, e | _⟩
  · refine ⟨lines ++ [(.error, e.message)], by simpa using hlines, ?_⟩
    rw [extractSelected_of_error hr, ← hadd, Log.logAll_append]
    rw [hr] at hlog
    exact congrArg (·.log .error e.message) hlog
  · refine ⟨lines, hlines, ?_⟩
    rw [extractSelected_of_ok hr, ← hadd]
    rw [hr] at hlog
    exact hlog

/-- An extraction that is sent asks for what is checked. -/
theorem request_of_newCalls (htree : b.session.tree = some tree)
    (h : newCalls b b.extractSelected = [.extract request]) :
    request.files = tree.checkedSet.files ∧ request.dirs = tree.checkedSet.dirs := by
  obtain ⟨log, hsession⟩ := (inert_announced b).session
  have hworker : b.announced.session.worker = b.session.worker := by rw [hsession]
  have hsent : ∀ {calls}, b.extractSelected.session.worker.calls = b.session.worker.calls ++ calls →
      calls = [.extract request] := fun hcalls => (newCalls_eq hcalls).symm.trans h
  have hextract := Session.extractResult b.announced.session
  generalize hr : b.announced.session.extract = r at hextract
  cases hextract with
  | busy _ | unready _ _ | unopened _ _ _ =>
      rw [extractSelected_of_error hr] at hsent
      cases hsent ((congrArg Worker.calls hworker).trans (List.append_nil _).symm)
  | refused _ _ _ _ hdead =>
      rw [extractSelected_of_error hr, ← hworker] at hsent
      cases hsent ((Worker.calls_send_of_dead hdead _).trans (List.append_nil _).symm)
  | @sent tree' files sink _ _ _ htree' _ halive =>
      have hsame : tree' = tree := by
        rw [hsession, Session.editableTree] at htree'
        split at htree'
        · exact Option.some.inj (htree'.symm.trans htree)
        · cases htree'
      rw [extractSelected_of_ok hr, ← hworker] at hsent
      have hrequest := List.head_eq_of_cons_eq (hsent (Worker.calls_send_of_alive halive _))
      rw [← EngineCall.extract.inj hrequest, ← hsame]
      exact ⟨rfl, rfl⟩

/-- **What the notice tells**: extracting logs the notice exactly if no checked file is counted, and
what is asked for is what is checked; so after all operations on the tree of a listing the notice is
logged exactly for an empty request if the listing is counted, and for no other listing. -/
theorem notice_run {entries : List Entry} (hb : SelectionTree.build entries = .ok t) :
    (∀ (b : Browser) ops, b.session.tree = some (t.run ops) →
        b.LogsNotice ((t.run ops).checkedCount == 0) ∧
        ∀ request, newCalls b b.extractSelected = [.extract request] →
          request.isEmpty = (t.run ops).checkedSet.isEmpty) ∧
      ((∀ ops, ((t.run ops).checkedCount == 0) = (t.run ops).checkedSet.isEmpty) ↔
        t.hierarchy.Counted) := by
  refine ⟨fun b ops htree => ⟨?_, fun request hsent => ?_⟩, ?_⟩
  · have hlogs := logsNotice_extractSelected b
    rwa [nothingChecked, htree] at hlogs
  · obtain ⟨hfiles, hdirs⟩ := request_of_newCalls htree hsent
    rw [ExtractionRequest.isEmpty, hfiles, hdirs]
    rfl
  · rw [← SelectionTree.countAgrees_run_iff hb]
    refine forall_congr' fun ops => ?_
    rw [SelectionTree.CountAgrees, Bool.eq_iff_iff, beq_iff_eq]

/-- In a listing with plain files, with everything unchecked, the notice is logged. -/
theorem notice_run_twoRootListing : ∃ t, SelectionTree.build SelectionTree.twoRootListing = .ok t ∧
    (∀ ops, ((t.run ops).checkedCount == 0) = (t.run ops).checkedSet.isEmpty) ∧
    let start := new {} atHome "out" setupFiles
    let b := { start with session := start.session.setTree (t.run [.uncheckAll]) }
    b.LogsNotice true := by
  obtain ⟨t, hb⟩ : ∃ t, SelectionTree.build SelectionTree.twoRootListing = .ok t := ⟨_, rfl⟩
  have hcounted : t.hierarchy.Counted := by
    refine Hierarchy.counted_of_plain ?_
    cases hb
    decide +kernel
  have hnone : ((t.run [.uncheckAll]).checkedCount == 0) = true := by
    cases hb
    decide +kernel
  obtain ⟨hlogs, hagrees⟩ := notice_run hb
  refine ⟨t, hb, hagrees.mpr hcounted, ?_⟩
  rw [← hnone]
  exact (hlogs _ _ rfl).1

/-- An installer with some listing is loaded. -/
def listingEvents (listing : String) : List Event :=
  [ .addFiles ["setup.exe"], .action .loadInstaller
  , .worker .take, .worker (.reply (.ok "\x7b\"name\":\"Setup\"\x7d")), .tick
  , .worker .take, .worker (.reply (.ok listing)), .tick ]

/-- A directory without children is asked for though the notice is logged; a main root without
children is counted if it is a file, and never asked for. -/
theorem not_notice_childless :
    let listed := fun listing => (new {} atHome "out" setupFiles).run (listingEvents listing)
    let b := listed "[\x7b\"node\":1,\"name\":\"empty\"\x7d]"
    let c := listed "[\x7b\"node\":0,\"name\":\"Setup\",\"fileId\":5,\"mainDir\":true\x7d]"
    (uncheckedNotice ∈ b.extractSelected.log.feed.map (·.message) ∧
      ∃ request, newCalls b b.extractSelected = [.extract request] ∧ request.isEmpty = false) ∧
    uncheckedNotice ∉ c.extractSelected.log.feed.map (·.message) ∧
      ∃ request, newCalls c c.extractSelected = [.extract request] ∧ request.isEmpty = true := by
  refine ⟨⟨by decide +kernel, .new ⟨[], ["empty"]⟩ none "out/setup.zip.part", ?_, rfl⟩,
    by decide +kernel, .new {} none "out/setup.zip.part", ?_, rfl⟩
  · decide +kernel
  · decide +kernel

end Browser

end InstallerBrowser
