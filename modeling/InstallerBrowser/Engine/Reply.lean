import InstallerBrowser.Error
import InstallerBrowser.Json.Parser

/-!
# InstallerBrowser.Engine.Reply

What an engine answers.

A reply is one JSON value. If it is an object with an `error` that is neither null nor blank, the
engine has failed, whatever else the reply holds (`readReply`). Each kind of call reads the rest
in its own way.
-/

namespace InstallerBrowser.Reply

/-! ## Failures -/

/-- The failure that a reply reports: a text, or any other value but null as compact JSON. -/
def failure? (value : Json) : Option String :=
  match value.member? "error" with
  | none | some .null => none
  | some (.string s) => if Text.isBlankText s then none else some s
  | some other => some other.render

/-- The value of a reply that reports no failure. -/
def readReply (raw : String) : Except AppError Json :=
  match Json.parse raw with
  | .error message => .error (.protocol (.badReply message))
  | .ok value =>
    match failure? value with
    | some message => .error (.engine message)
    | none => .ok value

/-- A value that was decoded, or the fault of the reply. -/
def decoded {α : Type} : Json.Decoded α → Except AppError α
  | .ok a => .ok a
  | .error e => .error (.protocol (.badReply e.message))

/-! ## Replies by kind -/

/-- The reply to a load: what the installer says about itself. -/
def parseLoad (raw : String) : Except AppError Metadata := do
  decoded (Metadata.ofJson (← readReply raw))

/-- The reply to a list: the entries. -/
def parseList (raw : String) : Except AppError (List Entry) := do
  match ← readReply raw with
  | .array items => decoded (items.mapM Entry.ofJson)
  | _ => .error (.protocol .listNotArray)

/-- How an extraction ends. -/
inductive ExtractOutcome where
  | completed (status : String)
  | aborted (status : String)
deriving Repr, DecidableEq

/-- The members of a reply to an extraction. -/
structure ExtractResponse where
  status : Option String := none
  aborted : Option Bool := none

/-- The fields of a reply to an extraction, in their order. -/
def ExtractResponse.jsonFields : List (Json.Field ExtractResponse) :=
  [ .optional "status" (Json.asOption Json.asString) fun v r => { r with status := v }
  , .optional "aborted" (Json.asOption Json.asBool) fun v r => { r with aborted := v } ]

/-- Whether a word stands somewhere among some characters. -/
def occursIn (word : List Char) : List Char → Bool
  | [] => word.isEmpty
  | c :: cs => word.isPrefixOf (c :: cs) || occursIn word cs

/-- Whether the letters of a word stand in a text, in capitals or not. -/
def mentions (word : List Char) (text : String) : Bool :=
  occursIn word (text.toList.map Char.toLower)

/-- The word by which a status tells of an abort. -/
def abortWord : List Char := ['a', 'b', 'o', 'r', 't']

/-- The reply to an extraction. Where `aborted` is missing, the status decides. -/
def parseExtract (raw : String) : Except AppError ExtractOutcome := do
  let value ← readReply raw
  let response ← decoded (Json.asRecord "ExtractResponse" ExtractResponse.jsonFields {} value)
  let status := response.status.getD ""
  if response.aborted.getD (mentions abortWord status) then .ok (.aborted status)
  else .ok (.completed status)

/-- The reply to whether the options differ: a truth value, alone or as `differ`. -/
def parseOptionsDiffer (raw : String) : Except AppError Bool := do
  match ← readReply raw with
  | .bool differ => .ok differ
  | .object members =>
    match Json.lookup "differ" members with
    | some (.bool differ) => .ok differ
    | _ => .error (.protocol .differMissing)
  | value => .error (.protocol (.differUnexpected value.render))

end InstallerBrowser.Reply
