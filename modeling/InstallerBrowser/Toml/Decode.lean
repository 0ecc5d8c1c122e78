import InstallerBrowser.Toml.Basic

/-!
# InstallerBrowser.Toml.Decode

From a TOML value to a record.

A record is a table, of which unknown members are skipped or refused, or an array of its fields
in their order, of which any number may be missing at the end and those beyond the last field are
not looked at. A field that is not given keeps its default; one that is given twice, under two of
its names, is refused.
-/

namespace InstallerBrowser.Toml

/-! ## Scalars -/

/-- A text. -/
def asString : Toml → Option String
  | .string s => some s
  | _ => none

/-- A truth value. -/
def asBool : Toml → Option Bool
  | .boolean b => some b
  | _ => none

/-- Whether a value is an array or a table that holds nothing. -/
def isEmpty : Toml → Bool
  | .array [] => true
  | .table [] => true
  | _ => false

/-- A choice: its name, or a table with the name as its one key and nothing for it. -/
def asChoice {α : Type} (ofName? : String → Option α) : Toml → Option α
  | .string s => ofName? s
  | .table [(s, v)] => if v.isEmpty then ofName? s else none
  | _ => none

/-! ## Records -/

/-- A field of a record `σ`: its names, and how a value given for it changes the record. -/
structure Field (σ : Type) where
  names : List String
  read : Toml → σ → Option σ

/-- A field with one name. -/
def Field.named {σ α : Type} (name : String) (item : Toml → Option α) (put : α → σ → σ) :
    Field σ :=
  ⟨[name], fun v record => (item v).map fun a => put a record⟩

/-- Whether members that are no field of a record are skipped or refused. -/
inductive Unknown where
  | skipped
  | refused
deriving Repr, DecidableEq

/-- Reads the members of a table in their order; `seen` holds the fields that were given. -/
def readMembers {σ : Type} (unknown : Unknown) (fields : List (Field σ)) :
    List Nat → List (String × Toml) → σ → Option σ
  | _, [], record => some record
  | seen, (key, v) :: rest, record =>
    match fields.findIdx? fun field => field.names.contains key with
    | none => if unknown = .refused then none else readMembers unknown fields seen rest record
    | some i =>
      match fields[i]? with
      | none => none
      | some field =>
        if seen.contains i then none
        else do
          let record ← field.read v record
          readMembers unknown fields (i :: seen) rest record

/-- Reads a record over a record of defaults. -/
def asRecord {σ : Type} (unknown : Unknown) (fields : List (Field σ)) (default : σ) :
    Toml → Option σ
  | .table members => readMembers unknown fields [] members default
  | .array items => (fields.zip items).foldlM (fun record (field, v) => field.read v record) default
  | _ => none

end InstallerBrowser.Toml
