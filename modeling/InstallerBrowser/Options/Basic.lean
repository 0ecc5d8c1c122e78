import InstallerBrowser.Json.Decode

/-!
# InstallerBrowser.Options.Basic

The options an installer is loaded and extracted with.

Two of the five options choose from a list and go on to the next choice when they are toggled,
from the last to the first; three are switches. In JSON each has one name; where options are
read, a second spelling is accepted too.
-/

namespace InstallerBrowser

/-! ## Choices -/

/-- Which files are extracted, by their language. -/
inductive LanguageFilter where
  | all
  | selected
  | agnostic
  | selectedAndAgnostic
deriving Repr, DecidableEq, Inhabited

namespace LanguageFilter

/-- The choices in their order. -/
def choices : List LanguageFilter := [.all, .selected, .agnostic, .selectedAndAgnostic]

/-- The words for a choice on screen. -/
def label : LanguageFilter → String
  | .all => "All files"
  | .selected => "Selected language"
  | .agnostic => "Language agnostic"
  | .selectedAndAgnostic => "Selected language + agnostic"

/-- The word for a choice in a text. -/
def name : LanguageFilter → String
  | .all => "all"
  | .selected => "lang"
  | .agnostic => "lang-agn"
  | .selectedAndAgnostic => "lang-plus-agn"

/-- The choice that follows. -/
def next : LanguageFilter → LanguageFilter
  | .all => .selected
  | .selected => .agnostic
  | .agnostic => .selectedAndAgnostic
  | .selectedAndAgnostic => .all

/-- The choice with a name. -/
def ofName? (s : String) : Option LanguageFilter := choices.find? fun c => c.name == s

end LanguageFilter

/-- What happens when two files would get one name. -/
inductive Collision where
  | overwrite
  | rename
  | renameAll
  | error
deriving Repr, DecidableEq, Inhabited

namespace Collision

/-- The choices in their order. -/
def choices : List Collision := [.overwrite, .rename, .renameAll, .error]

/-- The words for a choice on screen. -/
def label : Collision → String
  | .overwrite => "Overwrite"
  | .rename => "Rename"
  | .renameAll => "Rename all"
  | .error => "Error"

/-- The word for a choice in a text. -/
def name : Collision → String
  | .overwrite => "overwrite"
  | .rename => "rename"
  | .renameAll => "rename-all"
  | .error => "error"

/-- The choice that follows. -/
def next : Collision → Collision
  | .overwrite => .rename
  | .rename => .renameAll
  | .renameAll => .error
  | .error => .overwrite

/-- The choice with a name. -/
def ofName? (s : String) : Option Collision := choices.find? fun c => c.name == s

end Collision

/-! ## Options -/

/-- The options of a session. -/
structure Options where
  enableDebug : Bool := false
  excludeTemps : Bool := false
  languageFilter : LanguageFilter := .all
  collision : Collision := .overwrite
  logsToFile : Bool := false
deriving Repr, DecidableEq, Inhabited

/-- One of the options. -/
inductive OptionField where
  | enableDebug
  | excludeTemps
  | languageFilter
  | collision
  | logsToFile
deriving Repr, DecidableEq, Inhabited

namespace OptionField

/-- The options in the order in which they are shown and written. -/
def all : List OptionField :=
  [.enableDebug, .excludeTemps, .languageFilter, .collision, .logsToFile]

/-- The name of an option on screen. -/
def label : OptionField → String
  | .enableDebug => "Debug messages"
  | .excludeTemps => "Exclude temporary files"
  | .languageFilter => "Language filter"
  | .collision => "On name collision"
  | .logsToFile => "Buffer log for file"

/-- The name of an option in a text. -/
def name : OptionField → String
  | .enableDebug => "enableDebug"
  | .excludeTemps => "excludeTemps"
  | .languageFilter => "extractionLanguageFilterOptions"
  | .collision => "collisionResolutionOptions"
  | .logsToFile => "logsToFile"

/-- The second spelling of the name. -/
def secondName : OptionField → String
  | .enableDebug => "enable_debug"
  | .excludeTemps => "exclude_temps"
  | .languageFilter => "language_filter"
  | .collision => "collision_resolution"
  | .logsToFile => "logs_to_file"

/-- The option with a name, in either spelling. -/
def ofName? (s : String) : Option OptionField :=
  all.find? fun f => f.name == s || f.secondName == s

/-- The word for the position of a switch. -/
def switchLabel (on : Bool) : String := if on then "on" else "off"

/-- The words for the value of an option. -/
def valueLabel (o : Options) : OptionField → String
  | .enableDebug => switchLabel o.enableDebug
  | .excludeTemps => switchLabel o.excludeTemps
  | .languageFilter => o.languageFilter.label
  | .collision => o.collision.label
  | .logsToFile => switchLabel o.logsToFile

end OptionField

namespace Options

/-- The options with one of them changed to its next value. -/
def toggle (o : Options) : OptionField → Options
  | .enableDebug => { o with enableDebug := !o.enableDebug }
  | .excludeTemps => { o with excludeTemps := !o.excludeTemps }
  | .languageFilter => { o with languageFilter := o.languageFilter.next }
  | .collision => { o with collision := o.collision.next }
  | .logsToFile => { o with logsToFile := !o.logsToFile }

/-- The words for the values of all options. -/
def labels (o : Options) : List String := OptionField.all.map fun f => f.valueLabel o

/-! ## JSON -/

/-- The members of the options in JSON, in the order in which they are written. -/
def members (o : Options) : List (String × Json) :=
  [ (OptionField.name .enableDebug, .bool o.enableDebug)
  , (OptionField.name .excludeTemps, .bool o.excludeTemps)
  , (OptionField.name .languageFilter, .string o.languageFilter.name)
  , (OptionField.name .collision, .string o.collision.name)
  , (OptionField.name .logsToFile, .bool o.logsToFile) ]

/-- The options as JSON text. -/
def render (o : Options) : String := String.ofList (Json.write (.object o.members))

/-- A choice from its JSON value: its name, or an object with the name as its one key and no
value. -/
def choiceOfJson {α : Type} (names : List String) (ofName? : String → Option α) :
    Json → Json.Decoded α
  | .string s => pick s
  | .object [(s, .null)] => pick s
  | .object [(s, v)] => do
    let _ ← pick s
    .error (.invalidType v.found "unit")
  | v => .error (.invalidType v.found "string or map")
where
  pick (s : String) : Json.Decoded α :=
    match ofName? s with
    | some a => .ok a
    | none => .error (.unknownVariant s names)

/-- The options with one of them set from its JSON value. -/
def setJson (o : Options) (v : Json) : OptionField → Json.Decoded Options
  | .enableDebug => (Json.asBool v).map fun b => { o with enableDebug := b }
  | .excludeTemps => (Json.asBool v).map fun b => { o with excludeTemps := b }
  | .languageFilter =>
    (choiceOfJson (LanguageFilter.choices.map (·.name)) LanguageFilter.ofName? v).map
      fun c => { o with languageFilter := c }
  | .collision =>
    (choiceOfJson (Collision.choices.map (·.name)) Collision.ofName? v).map
      fun c => { o with collision := c }
  | .logsToFile => (Json.asBool v).map fun b => { o with logsToFile := b }

/-- Sets options from the members of an object; an option may be given once. -/
def setMembers : List OptionField → List (String × Json) → Options → Json.Decoded Options
  | _, [], o => .ok o
  | seen, (key, v) :: rest, o =>
    match OptionField.ofName? key with
    | none => setMembers seen rest o
    | some f =>
      if seen.contains f then .error (.duplicateField f.name)
      else do
        let o ← setJson o v f
        setMembers (f :: seen) rest o

/-- The options of a JSON value; those that are not given keep their defaults. -/
def ofJson : Json → Json.Decoded Options
  | .object members => setMembers [] members {}
  | .array items =>
    if 5 < items.length then .error (.invalidLength items.length "fewer elements in array")
    else (OptionField.all.zip items).foldlM (fun o (f, v) => setJson o v f) {}
  | v => .error (.invalidType v.found "struct SessionOptions")

end Options

end InstallerBrowser
