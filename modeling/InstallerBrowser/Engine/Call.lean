import InstallerBrowser.Options.Basic
import InstallerBrowser.Tree.Selection

/-!
# InstallerBrowser.Engine.Call

What is asked of an extraction engine.

There are four kinds of calls. A call is written as one line of JSON: an object whose `call`
names the kind and whose other members carry the data in a fixed order (`EngineCall.render`).
The line that asks a running engine to stop is no call (`abortLine`).
-/

namespace InstallerBrowser

/-! ## Calls -/

/-- The kinds of calls. -/
inductive CallKind where
  | load
  | list
  | extract
  | optionsDiffer
deriving Repr, DecidableEq, Inhabited

/-- The name of a kind. -/
def CallKind.name : CallKind → String
  | .load => "load"
  | .list => "list"
  | .extract => "extract"
  | .optionsDiffer => "optionsDiffer"

/-- What is to be extracted, and where to. -/
structure ExtractionRequest where
  files : List FileId
  dirs : List String
  /-- The code of the language chosen. -/
  language : Option String
  output : String
deriving Repr, DecidableEq, Inhabited

namespace ExtractionRequest

/-- The request for a choice. -/
def new (chosen : CheckedSet) (language : Option String) (output : String) : ExtractionRequest :=
  { files := chosen.files, dirs := chosen.dirs, language, output }

/-- Whether nothing is asked for by name. -/
def isEmpty (r : ExtractionRequest) : Bool := r.files.isEmpty && r.dirs.isEmpty

/-- The members of a request in JSON; a language that is not chosen is left out. -/
def members (r : ExtractionRequest) : List (String × Json) :=
  [ ("files", .array (r.files.map Json.ofNat))
  , ("dirs", .array (r.dirs.map .string)) ] ++
  (match r.language with
   | some code => [("lang", .string code)]
   | none => []) ++
  [("output", .string r.output)]

end ExtractionRequest

/-- A call to an engine. -/
inductive EngineCall where
  | load (file : String) (options : Options)
  | list
  | extract (request : ExtractionRequest)
  | optionsDiffer (options : Options)
deriving Repr, DecidableEq, Inhabited

namespace EngineCall

/-- The kind of a call. -/
def kind : EngineCall → CallKind
  | .load _ _ => .load
  | .list => .list
  | .extract _ => .extract
  | .optionsDiffer _ => .optionsDiffer

/-- The members of a call in JSON, behind the one that names its kind. -/
def arguments : EngineCall → List (String × Json)
  | .load file options => [("file", .string file), ("options", .object options.members)]
  | .list => []
  | .extract request => [("request", .object request.members)]
  | .optionsDiffer options => [("options", .object options.members)]

/-- A call as a JSON value, its members in the order in which they are written. -/
def toJson (c : EngineCall) : Json := .object (("call", .string c.kind.name) :: c.arguments)

/-- The line of a call. -/
def render (c : EngineCall) : String := c.toJson.render

end EngineCall

/-- The line that asks an engine to stop its extraction. -/
def abortLine : String := (Json.object [("call", .string "abort")]).render

end InstallerBrowser
