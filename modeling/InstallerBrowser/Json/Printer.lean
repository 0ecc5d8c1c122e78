import InstallerBrowser.Json.Basic

/-!
# InstallerBrowser.Json.Printer

The compact text of a JSON value.

No blank stands between two tokens. A string writes the quote, the backslash and the control
characters below U+0020 as escapes and every other character as itself, so a written value
never holds a line break. A floating-point number is the shortest decimal that reads back, with
a digit after the point or an exponent.
-/

namespace InstallerBrowser.Json

/-! ## Strings -/

/-- The characters that stand for one character of a string. -/
def escape (c : Char) : List Char :=
  if c = '"' then ['\\', '"']
  else if c = '\\' then ['\\', '\\']
  else if c = '\n' then ['\\', 'n']
  else if c = '\r' then ['\\', 'r']
  else if c = '\t' then ['\\', 't']
  else if c.toNat = 8 then ['\\', 'b']
  else if c.toNat = 12 then ['\\', 'f']
  else if c.toNat < 32 then
    ['\\', 'u', '0', '0', Nat.digitChar (c.toNat / 16), Nat.digitChar (c.toNat % 16)]
  else [c]

/-- The escaped characters of a string, without its quotes. -/
def escapeAll (cs : List Char) : List Char := cs.flatMap escape

/-- A string between quotes. -/
def quote (s : String) : List Char := '"' :: escapeAll s.toList ++ ['"']

/-! ## Numbers -/

/-- Positional notation is used for decimal exponents from -5 to 15. -/
def realLayout : Decimal.Layout := ⟨-5, 16⟩

/-- A floating-point number. -/
def writeReal (isNegative : Bool) (x : Decimal.Magnitude) : List Char :=
  (if isNegative then ['-'] else []) ++ realLayout.write (Decimal.shortest x)

/-- A number. -/
def writeNumber : JsonNumber → List Char
  | .natural n => (toString n).toList
  | .negative n => '-' :: (toString n).toList
  | .real isNegative x => writeReal isNegative x

/-! ## Values -/

mutual

/-- The characters of a value. -/
def write : Json → List Char
  | .null => ['n', 'u', 'l', 'l']
  | .bool true => ['t', 'r', 'u', 'e']
  | .bool false => ['f', 'a', 'l', 's', 'e']
  | .number n => writeNumber n
  | .string s => quote s
  | .array items => '[' :: writeItems items ++ [']']
  | .object members => '{' :: writeMembers members ++ ['}']

/-- The items of an array, separated by commas. -/
def writeItems : List Json → List Char
  | [] => []
  | [item] => write item
  | item :: rest => write item ++ ',' :: writeItems rest

/-- The members of an object, separated by commas. -/
def writeMembers : List (String × Json) → List Char
  | [] => []
  | [(key, value)] => quote key ++ ':' :: write value
  | (key, value) :: rest => quote key ++ ':' :: write value ++ ',' :: writeMembers rest

end

/-- The compact text of a value. -/
def render (value : Json) : String := String.ofList (write value)

end InstallerBrowser.Json
