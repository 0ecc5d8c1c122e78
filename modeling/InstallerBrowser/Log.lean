import InstallerBrowser.Calendar
import InstallerBrowser.Storage.FileStore
import InstallerBrowser.Text.Blank

/-!
# InstallerBrowser.Log

The log of a session.

A log is live or buffered. A live log adds each line to the feed on screen, which keeps the last
500; a buffered one adds it to a buffer that can be saved to a file. Debug lines are dropped while
they are off. A badge shows how many lines the buffer held when it was last refreshed. All handles
on a log are handles on the one log, whoever holds them.
-/

namespace InstallerBrowser

/-! ## Lines -/

/-- The weight of a line. -/
inductive LogLevel where
  | info
  | debug
  | error
deriving Repr, DecidableEq, Inhabited

namespace LogLevel

/-- The word for a level. -/
def label : LogLevel → String
  | .info => "INFO"
  | .debug => "DEBUG"
  | .error => "ERROR"

/-- The level that an engine means by a word, in capitals or not; other words mean the first. -/
def parse (raw : String) : LogLevel :=
  let word := (Text.trim raw).map Char.toLower
  if word == "debug" || word == "trace" then .debug
  else if word == "error" || word == "err" || word == "warn" || word == "warning" then .error
  else .info

end LogLevel

/-- A line of the log. -/
structure LogLine where
  level : LogLevel
  message : String
  /-- When the line was logged, in seconds. -/
  time : Int
deriving Repr, DecidableEq, Inhabited

/-- A line as it is saved: the time of day, the level in five columns, and the message. -/
def LogLine.format (l : LogLine) : String :=
  "[" ++ Calendar.timeOfDay l.time ++ "] " ++
    l.level.label.pushn ' ' (5 - l.level.label.length) ++ " " ++ l.message

/-! ## The log -/

/-- Where lines go. -/
inductive LogMode where
  | live
  | buffered
deriving Repr, DecidableEq, Inhabited

/-- The lines that were logged. -/
structure Log where
  mode : LogMode := .live
  debugEnabled : Bool := false
  /-- The lines on screen, oldest first. -/
  feed : List LogLine := []
  /-- The lines for a file. -/
  buffer : Array LogLine := #[]
  /-- How many lines the buffer holds. -/
  lineCount : Nat := 0
  /-- What the badge shows. -/
  displayedCount : Nat := 0
  /-- When the badge was refreshed, in milliseconds. -/
  refreshedAt : Option Nat := none
  /-- The time, in milliseconds. -/
  now : Nat := 0
deriving Repr, Inhabited

namespace Log

/-- How many lines the feed keeps. -/
def feedCapacity : Nat := 500

/-- The shortest time between two refreshes, in milliseconds. -/
def refreshInterval : Nat := 1000

/-- An empty log. -/
def new (mode : LogMode) : Log := { mode }

/-- The last items of a list. -/
def keepLast {α : Type} (n : Nat) (items : List α) : List α := items.drop (items.length - n)

/-- Whether a line of a level is kept. -/
def accepts (l : Log) (level : LogLevel) : Bool := level != .debug || l.debugEnabled

/-- Logs a message. -/
def log (l : Log) (level : LogLevel) (message : String) : Log :=
  if l.accepts level then
    let line : LogLine := { level, message, time := l.now / 1000 }
    match l.mode with
    | .live =>
      let room := if feedCapacity ≤ l.feed.length then l.feed.tail else l.feed
      { l with feed := room ++ [line] }
    | .buffered => { l with buffer := l.buffer.push line, lineCount := l.lineCount + 1 }
  else l

/-- Logs a message of the usual level. -/
def info (l : Log) (message : String) : Log := l.log .info message

/-- Logs a debug message. -/
def debug (l : Log) (message : String) : Log := l.log .debug message

/-- Logs an error. -/
def error (l : Log) (message : String) : Log := l.log .error message

/-- Whether enough time has passed since the badge was refreshed. -/
def isDue (l : Log) : Bool :=
  match l.refreshedAt with
  | none => true
  | some time => time + refreshInterval ≤ l.now

/-- Refreshes the badge, if that is forced or due; answers whether it was. -/
def refreshCounter (l : Log) (forced : Bool) : Log × Bool :=
  if forced || l.isDue then
    ({ l with displayedCount := l.lineCount, refreshedAt := some l.now }, true)
  else (l, false)

/-- Changes where lines go; a change refreshes the badge. -/
def setMode (l : Log) (mode : LogMode) : Log :=
  if l.mode = mode then l else ({ l with mode }.refreshCounter true).1

/-- Keeps or drops debug lines from now on. -/
def setDebugEnabled (l : Log) (enabled : Bool) : Log := { l with debugEnabled := enabled }

/-- The last lines of the feed. -/
def feedTail (l : Log) (n : Nat) : List LogLine := keepLast n l.feed

/-- The buffered lines as text, each with a line break. -/
def bufferText (l : Log) : String :=
  l.buffer.foldl (fun text line => text ++ line.format ++ "\n") ""

/-- The name of a saved log. -/
def fileName (l : Log) : String := "innodir-" ++ Calendar.stamp (l.now / 1000) ++ ".log"

/-- Saves the buffered lines in a directory, and answers with the path. -/
def flushTo (l : Log) (store : FileStore) (dir : String) :
    FileStore × Except StorageError String :=
  match store.growDirs dir with
  | (store, .error e) => (store, .error e)
  | (store, .ok ()) =>
    let path := Path.join dir l.fileName
    match store.write path l.bufferText with
    | .error e => (store, .error e)
    | .ok store => (store, .ok path)

/-- An operation on a log. -/
inductive Operation where
  | log (level : LogLevel) (message : String)
  | setMode (mode : LogMode)
  | setDebugEnabled (enabled : Bool)
  | refreshCounter (forced : Bool)
  | feedTail (n : Nat)
  | flushTo (dir : String)
  /-- The clock is at another time. -/
  | clock (now : Nat)
deriving Repr, DecidableEq

/-- A log and the files after one operation. -/
def step : Log × FileStore → Operation → Log × FileStore
  | (l, store), .log level message => (l.log level message, store)
  | (l, store), .setMode mode => (l.setMode mode, store)
  | (l, store), .setDebugEnabled enabled => (l.setDebugEnabled enabled, store)
  | (l, store), .refreshCounter forced => ((l.refreshCounter forced).1, store)
  | (l, store), .feedTail _ => (l, store)
  | (l, store), .flushTo dir => (l, (l.flushTo store dir).1)
  | (l, store), .clock now => ({ l with now }, store)

/-- A log and the files after a sequence of operations. -/
def run (l : Log) (store : FileStore) (ops : List Operation) : Log × FileStore :=
  ops.foldl step (l, store)

end Log

end InstallerBrowser
