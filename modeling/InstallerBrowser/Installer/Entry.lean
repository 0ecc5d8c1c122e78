import InstallerBrowser.Json.Decode
import InstallerBrowser.Text.Blank

/-!
# InstallerBrowser.Installer.Entry

The entries of a listing and the description of an installer, as an engine sends them.

An entry names a file or a directory inside an installer: `node` is its key, by which other
entries name it as their parent, and an entry with a `fileId` can be extracted on its own.
-/

namespace InstallerBrowser

/-! ## Listing -/

/-- The key of an entry in a listing. -/
abbrev NodeKey := Nat

/-- The number by which the engine extracts a file. -/
abbrev FileId := Nat

/-- An entry of a listing. -/
structure Entry where
  node : NodeKey
  fileId : Option FileId := none
  name : String
  parentId : Option NodeKey := none
  /-- Whether the entry stands for everything that can be extracted. -/
  isMainRoot : Bool := false
  languages : Option String := none
deriving Repr, DecidableEq, Inhabited

namespace Entry

/-- Whether an entry can be extracted on its own. -/
def isFile (e : Entry) : Bool := e.fileId.isSome

/-- The fields of an entry in JSON, in their order. -/
def jsonFields : List (Json.Field Entry) :=
  [ .needed "node" (Json.asNatural 32) fun v e => { e with node := v }
  , .optional "fileId" (Json.asOption (Json.asNatural 32)) fun v e => { e with fileId := v }
  , .needed "name" Json.asString fun v e => { e with name := v }
  , .optional "parentId" (Json.asOption (Json.asNatural 32)) fun v e => { e with parentId := v }
  , .optional "mainDir" Json.asBool fun v e => { e with isMainRoot := v }
  , .optional "languages" (Json.asOption Json.asString) fun v e => { e with languages := v } ]

/-- An entry from its JSON value. -/
def ofJson : Json → Json.Decoded Entry :=
  Json.asRecord "Entry" jsonFields { node := 0, name := "" }

end Entry

/-! ## Description -/

/-- A language that an installer can be extracted in. -/
structure Language where
  code : String
  name : Option String := none
deriving Repr, DecidableEq, Inhabited

namespace Language

/-- The name of a language, or its code where the name is missing or blank. -/
def displayName (l : Language) : String :=
  match l.name with
  | some name => if Text.isBlankText name then l.code else name
  | none => l.code

/-- The fields of a language in JSON, in their order. -/
def jsonFields : List (Json.Field Language) :=
  [ .needed "code" Json.asString fun v l => { l with code := v }
  , .optional "name" (Json.asOption Json.asString) fun v l => { l with name := v } ]

/-- A language from its JSON value. -/
def ofJson : Json → Json.Decoded Language := Json.asRecord "Language" jsonFields { code := "" }

end Language

/-- What an installer says about itself. -/
structure Metadata where
  name : String
  copyrights : String := ""
  /-- The size in megabytes. -/
  size : Nat := 0
  fileCount : Nat := 0
  languages : List Language := []
deriving Repr, DecidableEq, Inhabited

namespace Metadata

/-- Whether there is more than one language to choose from. -/
def hasLanguageChoice (m : Metadata) : Bool := m.languages.length > 1

/-- The fields of a description in JSON, in their order. -/
def jsonFields : List (Json.Field Metadata) :=
  [ .needed "name" Json.asString fun v m => { m with name := v }
  , .optional "copyrights" Json.asString fun v m => { m with copyrights := v }
  , .optional "size" (Json.asNatural 64) fun v m => { m with size := v }
  , .optional "files_num" (Json.asNatural 64) fun v m => { m with fileCount := v }
  , .optional "langs" (Json.asList Language.ofJson) fun v m => { m with languages := v } ]

/-- A description from its JSON value. -/
def ofJson : Json → Json.Decoded Metadata :=
  Json.asRecord "InstallerMetadata" jsonFields { name := "" }

end Metadata

end InstallerBrowser
