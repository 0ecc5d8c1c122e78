import InstallerBrowser.Decimal.Shortest

/-!
# InstallerBrowser.Json.Basic

JSON values.

A number is a natural number below `2 ^ 64`, a negative integer from `-2 ^ 63`, or a binary
floating-point number; the reader decides which. The members of an object stand in the order of
their keys and no key occurs twice: `insertMember` keeps that order, and a second member with
the same key takes the place of the first (`lookup_insertMember_self`,
`lookup_insertMember_of_ne`).
-/

namespace InstallerBrowser

/-! ## Values -/

/-- A JSON number. -/
inductive JsonNumber where
  /-- An integer that is not negative. -/
  | natural (n : Nat)
  /-- The integer `-n`. -/
  | negative (n : Nat)
  /-- A floating-point number and its sign. -/
  | real (isNegative : Bool) (x : Decimal.Magnitude)
deriving Repr, DecidableEq, Inhabited

/-- A JSON value. -/
inductive Json where
  | null
  | bool (b : Bool)
  | number (n : JsonNumber)
  | string (s : String)
  | array (items : List Json)
  | object (members : List (String × Json))
deriving Repr, Inhabited

namespace Json

/-- A natural number as a value. -/
def ofNat (n : Nat) : Json := .number (.natural n)

/-! ## Members of an object -/

/-- Puts a member at its place in the order of keys, in place of one with the same key. -/
def insertMember {α : Type} (key : String) (value : α) : List (String × α) → List (String × α)
  | [] => [(key, value)]
  | (k, v) :: rest =>
    if key < k then (key, value) :: (k, v) :: rest
    else if key = k then (key, value) :: rest
    else (k, v) :: insertMember key value rest

/-- Members in the order of their keys; of several with one key the last one stays. -/
def ofMembers {α : Type} (members : List (String × α)) : List (String × α) :=
  members.foldl (fun all member => insertMember member.1 member.2 all) []

/-- The value of a key. -/
def lookup {α : Type} (key : String) : List (String × α) → Option α
  | [] => none
  | (k, v) :: rest => if key = k then some v else lookup key rest

@[simp] theorem lookup_insertMember_self {α : Type} (key : String) (value : α)
    (members : List (String × α)) :
    lookup key (insertMember key value members) = some value := by
  induction members with
  | nil => simp [insertMember, lookup]
  | cons m rest ih =>
    simp only [insertMember]
    split
    · simp [lookup]
    · split
      · simp [lookup]
      · next h => simp [lookup, h, ih]

@[simp] theorem lookup_insertMember_of_ne {α : Type} {key other : String} (value : α)
    (members : List (String × α)) (h : other ≠ key) :
    lookup other (insertMember key value members) = lookup other members := by
  induction members with
  | nil => simp [insertMember, lookup, h]
  | cons m rest ih =>
    simp only [insertMember]
    split
    · simp [lookup, h]
    · split
      · next h' => simp [lookup, h, ← h']
      · simp [lookup, ih]

/-- The value of a member of an object; other values have none. -/
def member? (key : String) : Json → Option Json
  | .object members => lookup key members
  | _ => none

end Json

end InstallerBrowser
