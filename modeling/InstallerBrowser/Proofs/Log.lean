import InstallerBrowser.Log
import InstallerBrowser.Proofs.Storage.Staging

/-!
# InstallerBrowser.Proofs.Log

What a log keeps.

Which lines are accepted, and in which mode, is told by the operations alone: `Setting` follows the
mode, the debug switch and the clock, and knows neither feed nor buffer.  An operation does one of
four things to a log (`Stepped`), and so the buffer holds all lines accepted in buffered mode, the
feed the last of those accepted in live mode, and the counters never run ahead (`Keeps`).  Saving
writes the buffer out as it is and touches no other file (`Saved`).
-/

namespace InstallerBrowser.Log

variable {α : Type} {n : Nat} {items more : List α} {l : Log} {c : Setting} {op : Operation}
  {past : List Operation}

/-! ## The last items of a list -/

theorem keepLast_suffix (n : Nat) (items : List α) : keepLast n items <:+ items :=
  List.drop_suffix _ _

theorem length_keepLast (n : Nat) (items : List α) :
    (keepLast n items).length = min n items.length := by
  rw [keepLast, List.length_drop]
  omega

theorem keepLast_of_length_le (h : items.length ≤ n) : keepLast n items = items := by
  rw [keepLast, Nat.sub_eq_zero_of_le h, List.drop_zero]

/-- Items that are enough hide those in front of them. -/
theorem keepLast_append_of_le (h : n ≤ more.length) :
    keepLast n (items ++ more) = keepLast n more := by
  have hdrop : (items ++ more).length - n = items.length + (more.length - n) := by
    rw [List.length_append]
    omega
  rw [keepLast, keepLast, hdrop, List.drop_length_add_append]

/-- What was dropped before is not missed later. -/
theorem keepLast_keepLast_append (n : Nat) (items more : List α) :
    keepLast n (keepLast n items ++ more) = keepLast n (items ++ more) := by
  by_cases h : items.length ≤ n
  · rw [keepLast_of_length_le h]
  · have hlength : (keepLast n items).length = n := by
      rw [length_keepLast]
      omega
    have hsplit : items ++ more =
        items.take (items.length - n) ++ (keepLast n items ++ more) := by
      rw [← List.append_assoc, keepLast, List.take_append_drop]
    have henough : n ≤ (keepLast n items ++ more).length := by
      rw [List.length_append, hlength]
      exact Nat.le_add_right n _
    rw [hsplit, keepLast_append_of_le henough]

/-- A feed makes room for one line by giving up its first. -/
theorem room_append (items : List α) (item : α) (hpos : 0 < n) (h : items.length ≤ n) :
    (if n ≤ items.length then items.tail else items) ++ [item] = keepLast n (items ++ [item]) := by
  split
  · next hfull =>
      have hdrop : (items ++ [item]).length - n = 1 := by
        rw [List.length_append, List.length_singleton]
        omega
      have hsome : 1 ≤ items.length := by omega
      rw [keepLast, hdrop, List.drop_append_of_le_length hsome, List.drop_one]
  · next hroom =>
      have hfits : (items ++ [item]).length ≤ n := by
        rw [List.length_append, List.length_singleton]
        omega
      rw [keepLast_of_length_le hfits]

/-! ## The lines that are accepted -/

/-- What decides on the lines that are logged: where they go, whether debug lines are kept, and the
time. -/
structure Setting where
  mode : LogMode
  debugEnabled : Bool := false
  now : Nat := 0

/-- The setting of a log. -/
def setting (l : Log) : Setting := { mode := l.mode, debugEnabled := l.debugEnabled, now := l.now }

namespace Setting

/-- The setting after an operation. -/
def after (c : Setting) : Operation → Setting
  | .setMode mode => { c with mode }
  | .setDebugEnabled enabled => { c with debugEnabled := enabled }
  | .clock now => { c with now }
  | .log _ _ | .refreshCounter _ | .feedTail _ | .flushTo _ => c

/-- The line that an operation logs, and the mode it is logged in; a debug line while these are off
is not accepted. -/
def line? (c : Setting) : Operation → Option (LogMode × LogLine)
  | .log level message =>
    if level = .debug ∧ c.debugEnabled = false then none
    else some (c.mode, { level, message, time := c.now / 1000 })
  | .setMode _ | .setDebugEnabled _ | .refreshCounter _ | .feedTail _ | .flushTo _ | .clock _ =>
    none

end Setting

/-- The lines that are accepted in a sequence of operations, in their order. -/
def accepted (c : Setting) : List Operation → List (LogMode × LogLine)
  | [] => []
  | op :: rest => (c.line? op).toList ++ accepted (c.after op) rest

/-- The lines that were logged in a mode. -/
def linesIn (mode : LogMode) (lines : List (LogMode × LogLine)) : List LogLine :=
  (lines.filter fun line => line.1 = mode).map (·.2)

@[simp] theorem linesIn_self (mode : LogMode) (line : LogLine) :
    linesIn mode (some (mode, line)).toList = [line] := by
  simp [linesIn]

theorem linesIn_of_ne {mode other : LogMode} (h : other ≠ mode) (line : LogLine) :
    linesIn mode (some (other, line)).toList = [] := by
  simp [linesIn, h]

theorem linesIn_append (mode : LogMode) (before after : List (LogMode × LogLine)) :
    linesIn mode (before ++ after) = linesIn mode before ++ linesIn mode after := by
  simp [linesIn]

theorem accepted_concat (c : Setting) (past : List Operation) (op : Operation) :
    accepted c (past ++ [op]) =
      accepted c past ++ ((past.foldl Setting.after c).line? op).toList := by
  induction past generalizing c with
  | nil => simp [accepted]
  | cons first past ih =>
      rw [List.cons_append, accepted, accepted, ih, List.append_assoc]
      rfl

/-! ## One operation -/

theorem refreshCounter_cases (l : Log) (forced : Bool) :
    l.refreshCounter forced = (l, false) ∨
      l.refreshCounter forced =
        ({ l with displayedCount := l.lineCount, refreshedAt := some l.now }, true) := by
  unfold refreshCounter
  split
  · exact .inr rfl
  · exact .inl rfl

/-- A change of the mode refreshes the badge. -/
theorem setMode_of_ne {mode : LogMode} (h : mode ≠ l.mode) :
    l.setMode mode =
      { l with mode, displayedCount := l.lineCount, refreshedAt := some l.now } := by
  rw [setMode, if_neg (Ne.symm h)]
  rfl

/-- What an operation can do to a log. -/
inductive Stepped (l : Log) (op : Operation) : Log → Prop
  | shown {line : LogLine} {feed : List LogLine} : l.setting.line? op = some (.live, line) →
      l.setting.after op = l.setting → feed = keepLast feedCapacity (l.feed ++ [line]) →
      Stepped l op { l with feed }
  | buffered {line : LogLine} : l.setting.line? op = some (.buffered, line) →
      l.setting.after op = l.setting →
      Stepped l op { l with buffer := l.buffer.push line, lineCount := l.lineCount + 1 }
  | switched {mode : LogMode} {debugEnabled : Bool} {now : Nat} : l.setting.line? op = none →
      l.setting.after op = { mode, debugEnabled, now } →
      Stepped l op { l with mode, debugEnabled, now }
  | refreshed {mode : LogMode} : l.setting.line? op = none →
      l.setting.after op = { l.setting with mode } →
      Stepped l op { l with mode, displayedCount := l.lineCount, refreshedAt := some l.now }

theorem stepped_log (h : l.feed.length ≤ feedCapacity) (level : LogLevel) (message : String) :
    Stepped l (.log level message) (l.log level message) := by
  unfold log
  cases haccepts : l.accepts level with
  | false =>
      have hdropped : level = .debug ∧ l.debugEnabled = false := by
        simpa [accepts] using haccepts
      exact .switched (if_pos hdropped) rfl
  | true =>
      have hkept : ¬ (level = .debug ∧ l.debugEnabled = false) := by
        simpa [accepts, imp_iff_not_or] using haccepts
      have hline : l.setting.line? (.log level message) =
          some (l.mode, { level, message, time := l.now / 1000 }) := if_neg hkept
      simp only [if_true]
      split
      · next hmode =>
          rw [hmode] at hline
          exact .shown hline rfl (room_append l.feed _ (by decide) h)
      · next hmode =>
          rw [hmode] at hline
          exact .buffered hline rfl

theorem stepped (h : l.feed.length ≤ feedCapacity) (store : FileStore) (op : Operation) :
    Stepped l op (step (l, store) op).1 := by
  cases op with
  | log level message => exact stepped_log h level message
  | setMode mode =>
      by_cases hmode : mode = l.mode
      · rw [step, hmode, setMode, if_pos rfl]
        exact .switched rfl rfl
      · rw [step, setMode_of_ne hmode]
        exact .refreshed rfl rfl
  | setDebugEnabled enabled => exact .switched rfl rfl
  | refreshCounter forced =>
      rw [step]
      rcases l.refreshCounter_cases forced with heq | heq
      · rw [heq]
        exact .switched rfl rfl
      · rw [heq]
        exact .refreshed rfl rfl
  | feedTail n => exact .switched rfl rfl
  | flushTo dir => exact .switched rfl rfl
  | clock now => exact .switched rfl rfl

/-! ## Several lines -/

/-- A log in which lines are logged one after another. -/
def logAll (l : Log) (lines : List (LogLevel × String)) : Log :=
  lines.foldl (fun l line => l.log line.1 line.2) l

theorem logAll_append (l : Log) (before after : List (LogLevel × String)) :
    l.logAll (before ++ after) = (l.logAll before).logAll after := List.foldl_append

/-- The lines that come of some messages: those of the levels that are kept, with the time. -/
def linesOf (l : Log) (messages : List (LogLevel × String)) : List LogLine :=
  (messages.filter fun m => l.accepts m.1).map fun m =>
    { level := m.1, message := m.2, time := l.now / 1000 }

/-- A log with some lines behind those that it has; a full feed gives up its first ones. -/
def withLines (l : Log) (lines : List LogLine) : Log :=
  match l.mode with
  | .live => { l with feed := keepLast (max feedCapacity l.feed.length) (l.feed ++ lines) }
  | .buffered =>
    { l with buffer := l.buffer ++ lines.toArray, lineCount := l.lineCount + lines.length }

theorem withLines_nil (l : Log) : l.withLines [] = l := by
  unfold withLines
  split
  · rw [List.append_nil, keepLast_of_length_le (Nat.le_max_right _ _)]
  · simp

theorem withLines_append (l : Log) (before after : List LogLine) :
    l.withLines (before ++ after) = (l.withLines before).withLines after := by
  cases hmode : l.mode with
  | live =>
      -- A feed keeps its length from the first line on that finds it full.
      have hroom : max feedCapacity
          (keepLast (max feedCapacity l.feed.length) (l.feed ++ before)).length =
          max feedCapacity l.feed.length := by
        rw [length_keepLast, List.length_append]
        omega
      simp only [withLines, hmode, hroom, keepLast_keepLast_append, List.append_assoc]
  | buffered => simp [withLines, hmode, Nat.add_assoc]

theorem linesOf_withLines (l : Log) (lines : List LogLine) :
    (l.withLines lines).linesOf = l.linesOf := by
  unfold withLines
  split <;> rfl

/-- Logging a message adds its line, if it has one. -/
theorem log_eq_withLines (l : Log) (level : LogLevel) (message : String) :
    l.log level message = l.withLines (l.linesOf [(level, message)]) := by
  cases haccepts : l.accepts level with
  | false => simp [log, linesOf, haccepts, withLines_nil]
  | true =>
      cases hmode : l.mode with
      | live =>
          have hpos : 0 < max feedCapacity l.feed.length :=
            Nat.lt_of_lt_of_le (by decide) (Nat.le_max_left _ _)
          have hroom := room_append l.feed { level, message, time := l.now / 1000 } hpos
            (Nat.le_max_right _ _)
          have hfull : max feedCapacity l.feed.length ≤ l.feed.length ↔
              feedCapacity ≤ l.feed.length := by omega
          simp only [hfull] at hroom
          simp [log, linesOf, withLines, haccepts, hmode, hroom]
      | buffered => simp [log, linesOf, withLines, haccepts, hmode]

theorem logAll_eq_withLines (l : Log) (messages : List (LogLevel × String)) :
    l.logAll messages = l.withLines (l.linesOf messages) := by
  induction messages generalizing l with
  | nil => exact l.withLines_nil.symm
  | cons m rest ih =>
      have hsplit : l.linesOf (m :: rest) = l.linesOf [m] ++ l.linesOf rest := by
        rw [linesOf, ← List.singleton_append, List.filter_append, List.map_append]
        rfl
      calc (l.log m.1 m.2).logAll rest
          = (l.withLines (l.linesOf [m])).logAll rest := by rw [log_eq_withLines]
        _ = l.withLines (l.linesOf (m :: rest)) := by
            rw [ih, linesOf_withLines, hsplit, withLines_append]

/-! ## Along a run -/

/-- A log keeps what was accepted: it has not lost a line and has none twice. -/
structure Keeps (c : Setting) (past : List Operation) (l : Log) : Prop where
  setting : l.setting = past.foldl Setting.after c
  buffer : l.buffer.toList = linesIn .buffered (accepted c past)
  feed : l.feed = keepLast feedCapacity (linesIn .live (accepted c past))
  lineCount : l.lineCount = l.buffer.size
  displayedCount : l.displayedCount ≤ l.lineCount

theorem keeps_new (mode : LogMode) : Keeps { mode } [] (new mode) where
  setting := rfl
  buffer := rfl
  feed := (keepLast_of_length_le (Nat.zero_le _)).symm
  lineCount := rfl
  displayedCount := Nat.le_refl 0

theorem Keeps.length_feed_le (h : Keeps c past l) : l.feed.length ≤ feedCapacity := by
  rw [h.feed, length_keepLast]
  exact Nat.min_le_left _ _

theorem Keeps.step (h : Keeps c past l) (store : FileStore) (op : Operation) :
    Keeps c (past ++ [op]) (step (l, store) op).1 := by
  have hstepped := stepped h.length_feed_le store op
  generalize (Log.step (l, store) op).1 = l' at hstepped
  have haccepted : accepted c (past ++ [op]) = accepted c past ++ (l.setting.line? op).toList := by
    rw [accepted_concat, h.setting]
  have hquiet : l.setting.line? op = none → accepted c (past ++ [op]) = accepted c past := by
    intro hline
    rw [haccepted, hline, Option.toList_none, List.append_nil]
  have hsetting : (past ++ [op]).foldl Setting.after c = l.setting.after op := by
    rw [List.foldl_concat, h.setting]
  cases hstepped with
  | shown hline hkept hfeed =>
      have hother : LogMode.live ≠ .buffered := nofun
      rw [hline] at haccepted
      refine ⟨(hsetting.trans hkept).symm, ?_, ?_, h.lineCount, h.displayedCount⟩
      · rw [haccepted, linesIn_append, linesIn_of_ne hother, List.append_nil, h.buffer]
      · -- The feed has dropped lines before, and they are not among the last ones now either.
        rw [haccepted, linesIn_append, linesIn_self, hfeed, h.feed, keepLast_keepLast_append]
  | buffered hline hkept =>
      have hother : LogMode.buffered ≠ .live := nofun
      rw [hline] at haccepted
      refine ⟨(hsetting.trans hkept).symm, ?_, ?_, ?_, Nat.le_succ_of_le h.displayedCount⟩
      · rw [haccepted, linesIn_append, linesIn_self, Array.toList_push, h.buffer]
      · rw [haccepted, linesIn_append, linesIn_of_ne hother, List.append_nil, h.feed]
      · rw [Array.size_push, h.lineCount]
  | switched hline hset =>
      have hbuffer := h.buffer
      have hfeed := h.feed
      rw [← hquiet hline] at hbuffer hfeed
      exact ⟨(hsetting.trans hset).symm, hbuffer, hfeed, h.lineCount, h.displayedCount⟩
  | refreshed hline hset =>
      have hbuffer := h.buffer
      have hfeed := h.feed
      rw [← hquiet hline] at hbuffer hfeed
      exact ⟨(hsetting.trans hset).symm, hbuffer, hfeed, h.lineCount, Nat.le_refl _⟩

theorem Keeps.run (h : Keeps c past l) (store : FileStore) (ops : List Operation) :
    Keeps c (past ++ ops) (l.run store ops).1 := by
  induction ops generalizing past l store with
  | nil => rwa [List.append_nil]
  | cons op ops ih =>
      have hrest := ih (h.step store op) (Log.step (l, store) op).2
      rwa [List.append_assoc] at hrest

/-! ## Saving -/

theorem bufferText_eq (l : Log) :
    l.bufferText = String.join (l.buffer.toList.map fun line => line.format ++ "\n") := by
  rw [bufferText, ← Array.foldl_toList, String.join, List.foldl_map]
  simp only [String.append_assoc]

/-- What is at a place stays, unless a directory is made where nothing was. -/
def Spared (a b : FileStore) (place : Place) : Prop :=
  b.get? place = a.get? place ∨ a.get? place = none ∧ b.get? place = some .dir

/-- What saving a text under a name in a directory can come to: a file that holds the text, or a
failure, as the directory cannot be made or the file cannot be written.  No other file is touched. -/
inductive Saved (text dir name : String) (a : FileStore) :
    FileStore × Except StorageError String → Prop
  | written {b : FileStore} : b.read (Path.join dir name) = .ok text →
      (∀ place, b.resolve (Path.join dir name) ≠ .ok place → Spared a b place) →
      Saved text dir name a (b, .ok (Path.join dir name))
  | failed {b : FileStore} {e : StorageError} :
      (a.growDirs dir).2 = .error e ∨
        (a.growDirs dir).2 = .ok () ∧ b.write (Path.join dir name) text = .error e →
      (∀ place, Spared a b place) → Saved text dir name a (b, .error e)

theorem spared_growDirs (store : FileStore) (dir : String) (place : Place) :
    Spared store (store.growDirs dir).1 place := by
  have hgrows : FileStore.Grows (store.reach dir) store (store.growDirs dir).1 :=
    FileStore.grows_growDirs_go store _ dir
  rcases hgrows.get? place with heq | ⟨hnone, hmade, _⟩
  · exact .inl heq
  · exact .inr ⟨hnone, hmade⟩

theorem saved_flushTo (l : Log) (store : FileStore) (dir : String) :
    Saved l.bufferText dir l.fileName store (l.flushTo store dir) := by
  have hspared := spared_growDirs store dir
  rw [flushTo]
  generalize hgrow : store.growDirs dir = r at hspared
  obtain ⟨grown, e | ⟨⟩⟩ := r
  · exact .failed (.inl (congrArg Prod.snd hgrow)) hspared
  · have hmade : (store.growDirs dir).2 = .ok () := congrArg Prod.snd hgrow
    simp only
    cases hwrite : grown.write (Path.join dir l.fileName) l.bufferText with
    | error e => exact .failed (.inr ⟨hmade, hwrite⟩) hspared
    | ok after =>
        obtain ⟨target, htarget, hcontent, helsewhere⟩ := FileStore.get?_write hwrite
        have hread := FileStore.read_eq_ok_iff.mpr ⟨target, htarget, hcontent⟩
        refine .written hread fun place hplace => ?_
        have hne : place ≠ target := fun heq => hplace (heq ▸ htarget)
        rw [Spared, helsewhere place hne]
        exact hspared place

/-- **The log loses and duplicates nothing**: after any operations, the buffer holds exactly the
lines that were accepted in buffered mode, and the feed the last of those accepted in live mode, all
in order; the badge never shows more lines than there are, and shows their number after a change of
the mode or a refresh; the tail of the feed is the end of it, of the length asked for; and saving
writes the buffered lines, each with a line break, and leaves the log as it is. -/
theorem keeps_run (mode : LogMode) (store : FileStore) (ops : List Operation) :
    let l := ((new mode).run store ops).1
    let lines := accepted { mode } ops
    l.buffer.toList = linesIn .buffered lines ∧
      l.feed = keepLast feedCapacity (linesIn .live lines) ∧
      l.lineCount = l.buffer.size ∧ l.displayedCount ≤ l.lineCount ∧
      (∀ other, other ≠ l.mode →
        (l.setMode other).displayedCount = (l.setMode other).lineCount) ∧
      (∀ forced, (l.refreshCounter forced).2 = true →
        (l.refreshCounter forced).1.displayedCount = (l.refreshCounter forced).1.lineCount) ∧
      (∀ n, l.feedTail n <:+ l.feed ∧ (l.feedTail n).length = min n l.feed.length) ∧
      ∀ files dir, (step (l, files) (.flushTo dir)).1 = l ∧
        Saved (String.join (l.buffer.toList.map fun line => line.format ++ "\n")) dir l.fileName
          files (l.flushTo files dir) := by
  intro l lines
  have h : Keeps { mode } ops l := (keeps_new mode).run store ops
  have hmode : ∀ other, other ≠ l.mode →
      (l.setMode other).displayedCount = (l.setMode other).lineCount := by
    intro other hother
    rw [setMode_of_ne hother]
  have hrefresh : ∀ forced, (l.refreshCounter forced).2 = true →
      (l.refreshCounter forced).1.displayedCount = (l.refreshCounter forced).1.lineCount := by
    intro forced hforced
    rcases l.refreshCounter_cases forced with heq | heq
    · rw [heq] at hforced
      cases hforced
    · rw [heq]
  have hsaved := fun files dir => saved_flushTo l files dir
  simp only [bufferText_eq] at hsaved
  exact ⟨h.buffer, h.feed, h.lineCount, h.displayedCount, hmode, hrefresh,
    fun n => ⟨keepLast_suffix n l.feed, length_keepLast n l.feed⟩,
    fun files dir => ⟨rfl, hsaved files dir⟩⟩

/-- A debug line that is dropped, and one logged live, are not saved. -/
example :
    let ops := [.log .info "a", .log .debug "b", .setMode .live, .setDebugEnabled true,
      .log .debug "c", .setMode .buffered, .log .error "d", .flushTo "logs"]
    (((new .buffered).run (.empty ["work"]) ops).2.read
        "logs/innodir-19700101-000000.log").toOption =
      some "[00:00:00] INFO  a\n[00:00:00] ERROR d\n" := by decide +kernel

end InstallerBrowser.Log
