import InstallerBrowser.Json.Basic

/-!
# InstallerBrowser.Toml.Basic

TOML values, and documents while they are being built.

A document is a sequence of headers and assignments. A header `[a.b]` opens a table, a header
`[[a.b]]` opens a new table at the end of an array of tables, and an assignment `c.d = v` puts a
value into the table that is open. A table may be opened once, and neither a header nor an
assignment may reach into a table that the other has closed: `Standing` keeps how a table came to
be.
-/

namespace InstallerBrowser

/-- A TOML value. Floating-point numbers and dates are kept as they are written. -/
inductive Toml where
  | string (s : String)
  | integer (n : Int)
  | float (text : String)
  | boolean (b : Bool)
  | dateTime (text : String)
  | array (items : List Toml)
  | table (members : List (String × Toml))
deriving Repr, Inhabited

namespace Toml

/-! ## Documents -/

/-- How a table came to be. -/
inductive Standing where
  /-- By its own header, or as the document itself. -/
  | opened
  /-- By a header that goes deeper. -/
  | passed
  /-- By an assignment that goes deeper. -/
  | dotted
deriving Repr, DecidableEq, Inhabited

/-- What a name of a document stands for. -/
inductive Item where
  | value (v : Toml)
  | table (standing : Standing) (members : List (String × Item))
  /-- An array of tables, latest first. -/
  | tables (items : List (List (String × Item)))
deriving Inhabited

/-- The members of a table. -/
abbrev Members := List (String × Item)

/-- The members with one of them set; a new one comes last. -/
def setMember (key : String) (item : Item) : Members → Members
  | [] => [(key, item)]
  | (k, v) :: rest => if k = key then (k, item) :: rest else (k, v) :: setMember key item rest

/-- Changes the table at the end of a path. Tables that are missing are made with a standing; an
array of tables is entered at its latest table. An assignment does not enter a table that was
opened by its own header. -/
def changeAt (standing : Standing) (change : Standing → Members → Option Members) :
    List String → Standing → Members → Option Members
  | [], own, members => change own members
  | key :: path, _, members =>
    match Json.lookup key members with
    | none => do
      let inner ← changeAt standing change path standing []
      some (setMember key (.table standing inner) members)
    | some (.value _) => none
    | some (.tables []) => none
    | some (.tables (last :: before)) => do
      let last ← changeAt standing change path .opened last
      some (setMember key (.tables (last :: before)) members)
    | some (.table own inner) =>
      if standing = .dotted ∧ own = .opened then none
      else do
        let inner ← changeAt standing change path own inner
        some (setMember key (.table own inner) members)

/-- Opens the table of a header. -/
def openTable (path : List String) (document : Members) : Option Members :=
  match path.getLast? with
  | none => none
  | some key =>
    changeAt .passed (fun _ members =>
      match Json.lookup key members with
      | none => some (setMember key (.table .opened []) members)
      | some (.table .passed inner) => some (setMember key (.table .opened inner) members)
      | some _ => none) path.dropLast .opened document

/-- Opens a new table at the end of an array of tables. -/
def openArrayTable (path : List String) (document : Members) : Option Members :=
  match path.getLast? with
  | none => none
  | some key =>
    changeAt .passed (fun _ members =>
      match Json.lookup key members with
      | none => some (setMember key (.tables [[]]) members)
      | some (.tables items) => some (setMember key (.tables ([] :: items)) members)
      | some _ => none) path.dropLast .opened document

/-- Puts a value into a table, under a key that is free. The tables on the way to it are the
assignment's own. -/
def assign (path : List String) (v : Toml) (members : Members) : Option Members :=
  match path.getLast? with
  | none => none
  | some key =>
    let inner := path.dropLast
    changeAt .dotted (fun own members =>
      if ¬ inner.isEmpty ∧ own ≠ .dotted then none
      else
        match Json.lookup key members with
        | none => some (setMember key (.value v) members)
        | some _ => none) inner .opened members

/-- Puts a value into the table that a header has opened. -/
def assignIn (header : List String) (path : List String) (v : Toml) (document : Members) :
    Option Members :=
  changeAt .passed (fun _ members => assign path v members) header .opened document

/-! ## The value of a document -/

mutual

/-- The value of an item. -/
def Item.toToml : Item → Toml
  | .value v => v
  | .table _ members => .table (membersToToml members)
  | .tables items => .array (tablesToToml items).reverse

/-- The values of members. -/
def membersToToml : List (String × Item) → List (String × Toml)
  | [] => []
  | (key, item) :: rest => (key, item.toToml) :: membersToToml rest

/-- The values of tables. -/
def tablesToToml : List (List (String × Item)) → List Toml
  | [] => []
  | members :: rest => .table (membersToToml members) :: tablesToToml rest

end

end Toml

end InstallerBrowser
