import InstallerBrowser.Engine.Worker
import InstallerBrowser.Json.Decode
import InstallerBrowser.Json.Parser
import InstallerBrowser.Text.Split
import InstallerBrowser.Text.Words

/-!
# InstallerBrowser.Engine.Process

An engine that runs as a program of its own.

A call is one line to the program. What the program puts out are lines too: a line with a status,
a progress or a message for the log becomes a notice, any other text is logged as it stands, and
a line with a result ends the call (`readReply`). A line that asks for an abort can be sent at
any time and has no answer.
-/

namespace InstallerBrowser

/-! ## Lines -/

/-- A line that a program puts out. -/
inductive OutputLine where
  | text (line : String)
  /-- Bytes that are no text. -/
  | garbled
deriving Repr, DecidableEq

/-- The lines of a text; a line break at its end opens no further line. -/
def OutputLine.ofText (text : String) : List OutputLine :=
  let lines := Text.splitOn '\n' text.toList
  let lines := if lines.getLast? = some [] then lines.dropLast else lines
  lines.map fun cs => .text (String.ofList cs)

/-- What a line says that keeps to the protocol. -/
inductive EngineLine where
  | notice (notice : EngineNotice)
  | result (payload : Json)
deriving Repr

namespace EngineLine

/-- The values that lines carry. -/
structure Content where
  text : String := ""
  level : String := ""
  percent : JsonNumber := .natural 0
  payload : Json := .null

/-- A number. -/
def asNumber : Json → Json.Decoded JsonNumber
  | .number n => .ok n
  | v => .error (.invalidType v.found "f64")

/-- A number as a share of one hundred: rounded, and not outside of 0 and 100. -/
def percentOf : JsonNumber → Nat
  | .natural n => min n 100
  | .negative _ => 0
  | .real true _ => 0
  | .real false x => min x.roundHalfUp 100

/-- The kinds of lines. -/
inductive Kind where
  | status
  | progress
  | log
  | result
deriving Repr, DecidableEq

/-- The name of a kind. -/
def Kind.name : Kind → String
  | .status => "status"
  | .progress => "progress"
  | .log => "log"
  | .result => "result"

/-- The kind with a name. -/
def Kind.ofName? (s : String) : Option Kind :=
  [Kind.status, .progress, .log, .result].find? fun k => k.name == s

/-- The values that a line of a kind carries, in their order. -/
def Kind.fields : Kind → List (Json.Field Content)
  | .status => [.needed "text" Json.asString fun v c => { c with text := v }]
  | .progress => [.needed "percent" asNumber fun v c => { c with percent := v }]
  | .log =>
    [ .optional "level" Json.asString fun v c => { c with level := v }
    , .needed "text" Json.asString fun v c => { c with text := v } ]
  | .result => [.optional "payload" .ok fun v c => { c with payload := v }]

/-- What a line of a kind says. -/
def Kind.line (kind : Kind) (c : Content) : EngineLine :=
  match kind with
  | .status => .notice (.status c.text)
  | .progress => .notice (.ofPercent (percentOf c.percent))
  | .log => .notice (.log (LogLevel.parse c.level) c.text)
  | .result => .result c.payload

/-- The member that names the kind of a line. -/
def kindKey : String := "kind"

/-- A line of a kind, its values by name or in order. -/
def ofContent? (kind : Kind) (content : Json) : Option EngineLine :=
  match Json.asRecord "" kind.fields {} content with
  | .ok c => some (kind.line c)
  | .error _ => none

/-- How many members have a key. -/
def countKey (key : String) (members : List (String × Json)) : Nat :=
  members.countP fun member => member.1 == key

/-- A line as an object, its members as they are written: the kind is given once, and each value
at most once. -/
def ofMembers? (members : List (String × Json)) : Option EngineLine :=
  match Json.lookup kindKey members with
  | some (.string name) =>
    match Kind.ofName? name with
    | none => none
    | some kind =>
      if (kindKey :: kind.fields.map (·.name)).all fun key => countKey key members ≤ 1 then
        ofContent? kind (.object members)
      else none
  | _ => none

/-- A line as an array: the kind comes first, and its values follow. -/
def ofItems? : List Json → Option EngineLine
  | .string name :: values =>
    match Kind.ofName? name with
    | none => none
    | some kind => ofContent? kind (.array values)
  | _ => none

/-- What a text says, if it keeps to the protocol. -/
def parse? (text : String) : Option EngineLine :=
  match Json.readObject text.toList with
  | .ok (members, _) => ofMembers? members
  | .error _ =>
    match Json.parse text with
    | .ok (.array items) => ofItems? items
    | _ => none

end EngineLine

/-- The notice of a text that says something other than a result: what it says, or the text
itself for the log. -/
def EngineNotice.ofText (text : String) : EngineNotice :=
  match EngineLine.parse? text with
  | some (.notice notice) => notice
  | _ => .log .debug text

/-- The payload of a text that holds a result. -/
def EngineLine.payload? (text : String) : Option Json :=
  match EngineLine.parse? text with
  | some (.result payload) => some payload
  | _ => none

/-! ## The program -/

/-- A program and the two pipes between it and its caller. -/
structure EngineProcess where
  /-- What the program puts out when it has read a line; it is given all the lines it has read. -/
  answer : List String → List OutputLine
  /-- The lines it has read, oldest first. -/
  heard : List String := []
  /-- What it has put out and nobody has read, oldest first. -/
  unread : List OutputLine := []
  /-- How many more lines it reads before it closes its input; none if it never does. -/
  readsLeft : Option Nat := none

namespace EngineProcess

/-- Sends a line to the program. -/
def write (p : EngineProcess) (line : String) : Except StorageError EngineProcess :=
  if p.readsLeft = some 0 then .error .brokenPipe
  else
    let heard := p.heard ++ [line]
    .ok { p with heard, unread := p.unread ++ p.answer heard, readsLeft := p.readsLeft.map (· - 1) }

/-- What was read up to the end of a call. -/
structure Reading where
  notices : List EngineNotice
  result : Except AppError String
  /-- The lines behind the one that ended the call. -/
  rest : List OutputLine

/-- A reading with a notice in front. -/
def Reading.cons (notice : EngineNotice) (r : Reading) : Reading :=
  { r with notices := notice :: r.notices }

/-- Reads lines up to a result, or up to the end of the output. -/
def readReply : List OutputLine → Reading
  | [] => ⟨[], .error (.protocol .outputClosed), []⟩
  | .garbled :: rest => ⟨[], .error (.storage .invalidText), rest⟩
  | .text line :: rest =>
    let text := Text.trim line
    if text = "" then readReply rest
    else
      match EngineLine.payload? text with
      | some payload => ⟨[], .ok payload.render, rest⟩
      | none => (readReply rest).cons (.ofText text)

/-- Makes a call: what the program told, and the result. -/
def call (p : EngineProcess) (c : EngineCall) :
    EngineProcess × List EngineNotice × Except AppError String :=
  match p.write c.render with
  | .error e => (p, [], .error (.protocol (.writeFailed e)))
  | .ok p =>
    let r := readReply p.unread
    ({ p with unread := r.rest }, r.notices, r.result)

/-- Asks the program to stop what it does; a program that no longer listens is left alone. -/
def abort (p : EngineProcess) : EngineProcess :=
  match p.write abortLine with
  | .ok p => p
  | .error _ => p

/-! ## Starting a program -/

/-- The program of a command line and its arguments. -/
def readCommand (commandLine : String) : Except AppError (String × List String) :=
  match Text.splitWords commandLine with
  | none => .error (.config ("invalid engine command: " ++ commandLine))
  | some [] => .error (.config "engine command is empty")
  | some (program :: arguments) => .ok (program, arguments)

/-- Whether the text of a command holds the character that no command can hold. -/
def holdsNul (s : String) : Bool := s.toList.contains (Char.ofNat 0)

/-- Looks for a program: a name on the search path, or a path. Of the files in the store none may
be run. -/
def find (installed : List String) (store : FileStore) (program : String) :
    Except StorageError Unit :=
  if installed.contains program then .ok ()
  else if program = "." ∨ program = ".." then .error .permissionDenied
  else if program.toList.contains '/' then do
    let _ ← store.lookup program
    .error .permissionDenied
  else if program.utf8ByteSize > FileStore.maxName then .error .nameTooLong
  else .error .notFound

/-- Starts the program of a command line, if it can be found. -/
def spawn (installed : List String) (store : FileStore) (commandLine : String) :
    Except AppError Unit := do
  let (program, arguments) ← readCommand commandLine
  if (program :: arguments).any holdsNul then .error (.storage .nulInCommand)
  else
    match find installed store program with
    | .ok () => .ok ()
    | .error e => .error (.storage e)

end EngineProcess

end InstallerBrowser
