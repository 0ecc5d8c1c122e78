import InstallerBrowser.Json.Printer
import InstallerBrowser.Text.Quoted

/-!
# InstallerBrowser.Json.Decode

From a JSON value to a record.

A record is written as an object, whose members are read in the order of their keys and of which
unknown ones are skipped, or as an array of its fields in the order of declaration, from which
fields at the end may be missing. A field that is absent keeps its default unless it is required.
`DecodeError` tells what does not fit; its wording is that of the engine protocol's errors.
-/

namespace InstallerBrowser.Json

/-! ## What does not fit -/

/-- The kind of a value that was found in place of another, with its text where it has one. -/
inductive Found where
  | null
  | bool (b : Bool)
  | integer (n : JsonNumber)
  | real (n : JsonNumber)
  | string (s : String)
  | sequence
  | map
deriving Repr, DecidableEq

/-- The kind of a value. -/
def found : Json → Found
  | .null => .null
  | .bool b => .bool b
  | .number (.real s x) => .real (.real s x)
  | .number n => .integer n
  | .string s => .string s
  | .array _ => .sequence
  | .object _ => .map

/-- How a value that was found is told. -/
def Found.message : Found → String
  | .null => "null"
  | .bool b => "boolean `" ++ (if b then "true" else "false") ++ "`"
  | .integer n => "integer `" ++ String.ofList (writeNumber n) ++ "`"
  | .real n => "floating point `" ++ String.ofList (writeNumber n) ++ "`"
  | .string s => "string " ++ Text.quoted s
  | .sequence => "sequence"
  | .map => "map"

/-- Why a value is not the record or scalar that was expected. -/
inductive DecodeError where
  /-- A value of another type. -/
  | invalidType (found : Found) (expected : String)
  /-- An integer out of range. -/
  | invalidValue (found : Found) (expected : String)
  /-- An array with too few or too many items. -/
  | invalidLength (length : Nat) (expected : String)
  /-- An object without a required member. -/
  | missingField (name : String)
  /-- An object with a second member for a field. -/
  | duplicateField (name : String)
  /-- A text that names none of the choices. -/
  | unknownVariant (name : String) (choices : List String)
deriving Repr, DecidableEq

/-- The choices of a name, as a list in words. -/
def choicesMessage (choices : List String) : String :=
  match choices.map fun c => "`" ++ c ++ "`" with
  | [] => "there are no variants"
  | [a] => "expected " ++ a
  | [a, b] => "expected " ++ a ++ " or " ++ b
  | all => "expected one of " ++ ", ".intercalate all

/-- The wording of an error. -/
def DecodeError.message : DecodeError → String
  | .invalidType found expected => "invalid type: " ++ found.message ++ ", expected " ++ expected
  | .invalidValue found expected => "invalid value: " ++ found.message ++ ", expected " ++ expected
  | .invalidLength n expected => "invalid length " ++ toString n ++ ", expected " ++ expected
  | .missingField name => "missing field `" ++ name ++ "`"
  | .duplicateField name => "duplicate field `" ++ name ++ "`"
  | .unknownVariant name choices =>
    "unknown variant `" ++ name ++ "`, " ++ choicesMessage choices

/-- A value decoded, or why it could not be. -/
abbrev Decoded (α : Type) := Except DecodeError α

/-! ## Scalars -/

/-- A text. -/
def asString : Json → Decoded String
  | .string s => .ok s
  | v => .error (.invalidType v.found "a string")

/-- A truth value. -/
def asBool : Json → Decoded Bool
  | .bool b => .ok b
  | v => .error (.invalidType v.found "a boolean")

/-- A natural number below `2 ^ bits`. -/
def asNatural (bits : Nat) (v : Json) : Decoded Nat :=
  let expected := "u" ++ toString bits
  match v with
  | .number (.natural n) =>
    if n < Nat.pow 2 bits then .ok n else .error (.invalidValue (found v) expected)
  | .number (.negative _) => .error (.invalidValue (found v) expected)
  | v => .error (.invalidType v.found expected)

/-- `null`, or a value. -/
def asOption {α : Type} (item : Json → Decoded α) : Json → Decoded (Option α)
  | .null => .ok none
  | v => (item v).map some

/-- A list of values. -/
def asList {α : Type} (item : Json → Decoded α) : Json → Decoded (List α)
  | .array items => items.mapM item
  | v => .error (.invalidType v.found "a sequence")

/-! ## Records -/

/-- A field of a record `σ`: how a value given for it changes the record read so far. -/
structure Field (σ : Type) where
  name : String
  required : Bool
  read : Json → σ → Decoded σ

/-- A field that has to be given. -/
def Field.needed {σ α : Type} (name : String) (item : Json → Decoded α) (put : α → σ → σ) :
    Field σ :=
  ⟨name, true, fun v record => (item v).map fun a => put a record⟩

/-- A field that keeps its default where it is not given. -/
def Field.optional {σ α : Type} (name : String) (item : Json → Decoded α) (put : α → σ → σ) :
    Field σ :=
  ⟨name, false, fun v record => (item v).map fun a => put a record⟩

/-- Reads the members of an object in their order; those that are no field are skipped. -/
def readNamed {σ : Type} (fields : List (Field σ)) : List (String × Json) → σ → Decoded σ
  | [], record => .ok record
  | (key, value) :: rest, record =>
    match fields.find? (fun field => field.name == key) with
    | some field => do
      let record ← field.read value record
      readNamed fields rest record
    | none => readNamed fields rest record

/-- The first required field that has no member. -/
def missingField? {σ : Type} (fields : List (Field σ)) (members : List (String × Json)) :
    Option String :=
  (fields.find? fun field => field.required && (lookup field.name members).isNone).map (·.name)

/-- Reads fields by position; the first missing one that is required makes the array too short. -/
def readInOrder {σ : Type} (expected : String) :
    Nat → List (Field σ) → List Json → σ → Decoded σ
  | _, [], _, record => .ok record
  | i, field :: fields, [], record =>
    if field.required then .error (.invalidLength i expected)
    else readInOrder expected (i + 1) fields [] record
  | i, field :: fields, value :: values, record => do
    let record ← field.read value record
    readInOrder expected (i + 1) fields values record

/-- Reads a record, given by name or by position, over a record of defaults. -/
def asRecord {σ : Type} (name : String) (fields : List (Field σ)) (default : σ) :
    Json → Decoded σ
  | .object members => do
    let record ← readNamed fields members default
    match missingField? fields members with
    | some field => .error (.missingField field)
    | none => .ok record
  | .array items => do
    let expected := "struct " ++ name ++ " with " ++ toString fields.length ++ " element" ++
      (if fields.length = 1 then "" else "s")
    let record ← readInOrder expected 0 fields items default
    if fields.length < items.length then
      .error (.invalidLength items.length "fewer elements in array")
    else .ok record
  | v => .error (.invalidType v.found ("struct " ++ name))

end InstallerBrowser.Json
