import InstallerBrowser.Decimal.Binary
import InstallerBrowser.Text.Digit
import InstallerBrowser.Toml.Basic

/-!
# InstallerBrowser.Toml.Parser

Reading TOML text, version 1.0.

A reader takes characters from the front of a text and answers with what it read and the text
that is left, or with nothing if the text is malformed. Arrays and inline tables may stand inside
each other up to a depth of 79, and a key may have up to 79 parts.
-/

namespace InstallerBrowser.Toml

/-- How many arrays and inline tables may stand inside each other, and how many parts a key may
have. -/
def maxDepth : Nat := 79

/-! ## Blanks, line ends and comments -/

/-- A space or a tab. -/
def isBlank (c : Char) : Bool := c == ' ' || c == '\t'

/-- The text behind spaces and tabs. -/
def skipBlank (cs : List Char) : List Char := cs.dropWhile isBlank

/-- The text behind a line break. -/
def lineBreak : List Char → Option (List Char)
  | '\n' :: rest => some rest
  | '\r' :: '\n' :: rest => some rest
  | _ => none

/-- Whether a character may stand where every visible one may: no control character but the
tab. -/
def isText (c : Char) : Bool :=
  c == '\t' || (0x20 ≤ c.toNat && c.toNat ≠ 0x7F)

/-- The text behind a comment, if one starts here. -/
def skipComment : List Char → List Char
  | '#' :: rest => rest.dropWhile isText
  | cs => cs

/-- Takes the rest of a line, which holds nothing but a comment. -/
def endLine (cs : List Char) : Option (List Char) :=
  match skipComment (skipBlank cs) with
  | [] => some []
  | rest => lineBreak rest

/-- The text behind blanks, line breaks and comments. The bound is the length of the text. -/
def skipLines : Nat → List Char → List Char
  | 0, cs => cs
  | bound + 1, cs =>
    let cs := skipComment (skipBlank cs)
    match lineBreak cs with
    | some rest => skipLines bound rest
    | none => cs

/-- The text behind all blanks, line breaks and comments. -/
def skipAll (cs : List Char) : List Char := skipLines (cs.length + 1) cs

/-! ## Strings -/

/-- Takes so many digits in base sixteen, added to those taken before. -/
def takeHex : Nat → Nat → List Char → Option (Nat × List Char)
  | 0, n, cs => some (n, cs)
  | _ + 1, _, [] => none
  | count + 1, n, c :: cs => do
    let digit ← Text.hexValue? c
    takeHex count (n * 16 + digit) cs

/-- The character with a number, if it has one. -/
def charOf? (n : Nat) : Option Char := if n.isValidChar then some (Char.ofNat n) else none

/-- The character of an escape, behind its backslash. -/
def takeEscape : List Char → Option (Char × List Char)
  | [] => none
  | c :: rest =>
    if c = '"' ∨ c = '\\' then some (c, rest)
    else if c = 'b' then some (Char.ofNat 8, rest)
    else if c = 'f' then some (Char.ofNat 12, rest)
    else if c = 'n' then some ('\n', rest)
    else if c = 'r' then some ('\r', rest)
    else if c = 't' then some ('\t', rest)
    else if c = 'u' ∨ c = 'U' then do
      let (n, rest) ← takeHex (if c = 'u' then 4 else 8) 0 rest
      some (← charOf? n, rest)
    else none

/-- The two kinds of quotes: between double ones a backslash escapes. -/
inductive QuoteKind where
  | basic
  | literal
deriving Repr, DecidableEq

/-- The character of a quote. -/
def QuoteKind.mark : QuoteKind → Char
  | .basic => '"'
  | .literal => '\''

/-- The rest of a string on one line, behind its first quote; the characters read before stand
in reverse. The bound is the length of the text. -/
def takeLineString (kind : QuoteKind) :
    Nat → List Char → List Char → Option (String × List Char)
  | 0, _, _ => none
  | _ + 1, _, [] => none
  | bound + 1, before, c :: rest =>
    if c = kind.mark then some (String.ofList before.reverse, rest)
    else if kind = .basic ∧ c = '\\' then do
      let (c, rest) ← takeEscape rest
      takeLineString kind bound (c :: before) rest
    else if isText c then takeLineString kind bound (c :: before) rest
    else none

/-- The text behind a backslash at the end of a line: up to the next character that is neither
blank nor a line break. -/
def skipFold (cs : List Char) : Option (List Char) := do
  let rest ← lineBreak (skipBlank cs)
  some (go (rest.length + 1) rest)
where
  go : Nat → List Char → List Char
    | 0, cs => cs
    | bound + 1, cs =>
      let cs := skipBlank cs
      match lineBreak cs with
      | some rest => go bound rest
      | none => cs

/-- The rest of a string on several lines. Up to two quotes may stand anywhere in it, also before
the three that end it. The bound is the length of the text. -/
def takeBlockString (kind : QuoteKind) :
    Nat → List Char → List Char → Option (String × List Char)
  | 0, _, _ => none
  | _ + 1, _, [] => none
  | bound + 1, before, c :: rest =>
    if c = kind.mark then
      let quotes := (c :: rest).takeWhile (· == kind.mark)
      if quotes.length < 3 then takeBlockString kind bound (c :: before) rest
      else
        let extra := min (quotes.length - 3) 2
        some (String.ofList (before.reverse ++ List.replicate extra kind.mark),
          (c :: rest).drop (extra + 3))
    else if kind = .basic ∧ c = '\\' then
      match skipFold rest with
      | some rest => takeBlockString kind bound before rest
      | none => do
        let (c, rest) ← takeEscape rest
        takeBlockString kind bound (c :: before) rest
    else if isText c then takeBlockString kind bound (c :: before) rest
    else do
      let rest ← lineBreak (c :: rest)
      takeBlockString kind bound ('\n' :: before) rest

/-- A string on one line. -/
def takeKeyString (kind : QuoteKind) (cs : List Char) : Option (String × List Char) :=
  takeLineString kind (cs.length + 1) [] cs

/-- A string, behind its first quote. -/
def takeString (kind : QuoteKind) (cs : List Char) : Option (String × List Char) :=
  match cs with
  | a :: b :: rest =>
    if a = kind.mark ∧ b = kind.mark then
      let rest := (lineBreak rest).getD rest
      takeBlockString kind (rest.length + 1) [] rest
    else takeKeyString kind cs
  | _ => takeKeyString kind cs

/-! ## Keys -/

/-- A character of a key without quotes. -/
def isKeyChar (c : Char) : Bool := c.isAlphanum || c == '-' || c == '_'

/-- One part of a key. -/
def takeKeyPart (cs : List Char) : Option (String × List Char) :=
  match cs with
  | '"' :: rest => takeKeyString .basic rest
  | '\'' :: rest => takeKeyString .literal rest
  | _ =>
    match cs.takeWhile isKeyChar with
    | [] => none
    | name => some (String.ofList name, cs.dropWhile isKeyChar)

/-- The parts of a key, with blanks around each. The bound is the number of parts allowed. -/
def takeKey : Nat → List Char → Option (List String × List Char)
  | 0, _ => none
  | bound + 1, cs => do
    let (part, rest) ← takeKeyPart (skipBlank cs)
    match skipBlank rest with
    | '.' :: rest => do
      let (parts, rest) ← takeKey bound rest
      some (part :: parts, rest)
    | rest => some ([part], rest)

/-! ## Numbers and dates -/

/-- Takes digits with single underscores between them. -/
def takeDigits (isDigit : Char → Bool) (cs : List Char) : Option (List Char × List Char) :=
  match cs with
  | c :: rest => if isDigit c then go (rest.length + 1) [c] rest else none
  | [] => none
where
  go : Nat → List Char → List Char → Option (List Char × List Char)
    | 0, _, _ => none
    | _ + 1, before, [] => some (before.reverse, [])
    | bound + 1, before, c :: rest =>
      if isDigit c then go bound (c :: before) rest
      else if c = '_' then
        match rest with
        | d :: rest => if isDigit d then go bound (d :: before) rest else none
        | [] => none
      else some (before.reverse, c :: rest)

/-- The number that digits in a base form. -/
def ofDigits (base : Nat) (digits : List Char) : Nat :=
  digits.foldl (fun n c => n * base + (Text.hexValue? c).getD 0) 0

/-- A sign, and whether it is a minus. -/
def takeSign : List Char → Bool × List Char
  | '+' :: rest => (false, rest)
  | '-' :: rest => (true, rest)
  | cs => (false, cs)

/-- The digits of a decimal integer: no zero in front. -/
def takeDecimal (cs : List Char) : Option (List Char × List Char) :=
  match cs with
  | '0' :: rest => some (['0'], rest)
  | _ => takeDigits Char.isDigit cs

/-- An integer, if it fits into 64 bits. -/
def integerOf (isNegative : Bool) (n : Nat) : Option Toml :=
  if isNegative then if n ≤ Nat.pow 2 63 then some (.integer (-(n : Int))) else none
  else if n < Nat.pow 2 63 then some (.integer n) else none

/-- The digits allowed in a base. -/
def isDigitOf (base : Nat) (c : Char) : Bool :=
  match Text.hexValue? c with
  | some n => n < base
  | none => false

/-- An integer in a base, behind its mark. -/
def takeBased (base : Nat) (cs : List Char) : Option (Toml × List Char) := do
  let (digits, rest) ← takeDigits (isDigitOf base) cs
  some (← integerOf false (ofDigits base digits), rest)

/-- An integer. -/
def takeInteger (cs : List Char) : Option (Toml × List Char) :=
  match cs with
  | '0' :: 'x' :: rest => takeBased 16 rest
  | '0' :: 'o' :: rest => takeBased 8 rest
  | '0' :: 'b' :: rest => takeBased 2 rest
  | _ => do
    let (isNegative, rest) := takeSign cs
    let (digits, rest) ← takeDecimal rest
    some (← integerOf isNegative (ofDigits 10 digits), rest)

/-- Whether a decimal is too large for a floating-point number: `digits · 10 ^ exponent`. -/
def isTooLarge (digits : List Char) (exponent : Int) : Bool :=
  let n := ofDigits 10 digits
  let size : Int := (toString n).length
  if n = 0 ∨ size + exponent < 300 then false
  else if 400 < size + exponent then true
  else
    (Decimal.nearest (n * Nat.pow 10 exponent.toNat) (Nat.pow 10 (-exponent).toNat)).isTooLarge

/-- The exponent of a floating-point number, if one follows. -/
def takeExponent (cs : List Char) : Option (Option Int × List Char) :=
  let behind (rest : List Char) : Option (Option Int × List Char) := do
    let (isNegative, rest) := takeSign rest
    let (digits, rest) ← takeDigits Char.isDigit rest
    let n : Int := ofDigits 10 digits
    some (some (if isNegative then -n else n), rest)
  match cs with
  | 'e' :: rest => behind rest
  | 'E' :: rest => behind rest
  | _ => some (none, cs)

/-- The digits behind the point of a floating-point number, if it has one. -/
def takeFraction (cs : List Char) : Option (Option (List Char) × List Char) :=
  match cs with
  | '.' :: rest => do
    let (digits, rest) ← takeDigits Char.isDigit rest
    some (some digits, rest)
  | _ => some (none, cs)

/-- The characters of a text that were taken from it. -/
def taken (cs rest : List Char) : String := String.ofList (cs.take (cs.length - rest.length))

/-- A floating-point number, which has a point, an exponent or a name. -/
def takeFloat (cs : List Char) : Option (Toml × List Char) :=
  let (isNegative, rest) := takeSign cs
  match rest with
  | 'i' :: 'n' :: 'f' :: rest => some (.float (taken cs rest), rest)
  | 'n' :: 'a' :: 'n' :: rest => some (.float (taken cs rest), rest)
  | _ => do
    let (whole, rest) ← takeDecimal rest
    let (fraction, rest) ← takeFraction rest
    let (exponent, rest) ← takeExponent rest
    if fraction.isNone ∧ exponent.isNone then none
    else
      let digits := fraction.getD []
      if isTooLarge (whole ++ digits) (exponent.getD 0 - digits.length) ∧ ¬ isNegative then none
      else some (.float (taken cs rest), rest)

/-- Takes exactly so many decimal digits. -/
def takeCount (count : Nat) (cs : List Char) : Option (Nat × List Char) :=
  let digits := cs.take count
  if digits.length = count ∧ digits.all Char.isDigit then
    some (ofDigits 10 digits, cs.drop count)
  else none

/-- Takes a number of two digits between two bounds. -/
def takeTwo (lo hi : Nat) (cs : List Char) : Option (Nat × List Char) := do
  let (n, rest) ← takeCount 2 cs
  if lo ≤ n ∧ n ≤ hi then some (n, rest) else none

/-- Takes one given character. -/
def takeChar (c : Char) : List Char → Option (List Char)
  | d :: rest => if c = d then some rest else none
  | [] => none

/-- How many days a month has. -/
def daysIn (year month : Nat) : Nat :=
  if month = 2 then
    if year % 4 = 0 ∧ (year % 100 ≠ 0 ∨ year % 400 = 0) then 29 else 28
  else if [4, 6, 9, 11].contains month then 30
  else 31

/-- Takes a date. -/
def takeDate (cs : List Char) : Option (List Char) := do
  let (year, rest) ← takeCount 4 cs
  let (month, rest) ← takeTwo 1 12 (← takeChar '-' rest)
  let (_, rest) ← takeTwo 1 (daysIn year month) (← takeChar '-' rest)
  some rest

/-- Takes a time of day. -/
def takeTime (cs : List Char) : Option (List Char) := do
  let (_, rest) ← takeTwo 0 23 cs
  let (_, rest) ← takeTwo 0 59 (← takeChar ':' rest)
  let (_, rest) ← takeTwo 0 60 (← takeChar ':' rest)
  match rest with
  | '.' :: d :: after =>
    if d.isDigit then some (after.dropWhile Char.isDigit) else some rest
  | _ => some rest

/-- Takes the offset of a time zone, if one follows. -/
def takeOffset (cs : List Char) : Option (List Char) :=
  match cs with
  | 'Z' :: rest => some rest
  | 'z' :: rest => some rest
  | c :: rest =>
    if c = '+' ∨ c = '-' then do
      let (_, rest) ← takeTwo 0 23 rest
      let (_, rest) ← takeTwo 0 59 (← takeChar ':' rest)
      some rest
    else some cs
  | [] => some []

/-- Takes the time behind a date, if one follows. -/
def takeTimeOfDate (cs : List Char) : Option (List Char) :=
  match cs with
  | c :: rest =>
    if c = 'T' ∨ c = 't' ∨ c = ' ' then
      match takeTime rest with
      | some rest => takeOffset rest
      | none => some cs
    else some cs
  | [] => some []

/-- A date, a time or both. -/
def takeDateTime (cs : List Char) : Option (Toml × List Char) :=
  match takeDate cs with
  | some rest => (takeTimeOfDate rest).map fun rest => (.dateTime (taken cs rest), rest)
  | none => (takeTime cs).map fun rest => (.dateTime (taken cs rest), rest)

/-- A number or a date. -/
def takeNumber (cs : List Char) : Option (Toml × List Char) :=
  (takeDateTime cs).or ((takeFloat cs).or (takeInteger cs))

/-! ## Values -/

/-- Takes the letters of a word. -/
def takeWord {α : Type} (value : α) (word cs : List Char) : Option (α × List Char) :=
  if word.isPrefixOf cs then some (value, cs.drop word.length) else none

/-- The items of an array behind its bracket; those read before stand in reverse. The bound is
the length of the text. -/
def takeItems {α : Type} (item : List Char → Option (α × List Char)) :
    Nat → List α → List Char → Option (List α × List Char)
  | 0, _, _ => none
  | bound + 1, before, cs =>
    match skipAll cs with
    | ']' :: rest => some (before.reverse, rest)
    | rest => do
      let (v, rest) ← item rest
      match skipAll rest with
      | ',' :: rest => takeItems item bound (v :: before) rest
      | ']' :: rest => some ((v :: before).reverse, rest)
      | _ => none

/-- A key, the equals sign behind it and a value. -/
def takePair {α : Type} (item : List Char → Option (α × List Char)) (cs : List Char) :
    Option ((List String × α) × List Char) := do
  let (key, rest) ← takeKey maxDepth cs
  let (v, rest) ← item (skipBlank (← takeChar '=' rest))
  some ((key, v), rest)

/-- The pairs of an inline table behind its brace; those read before stand in reverse. No comma
stands behind the last one. The bound is the length of the text. -/
def takePairs {α : Type} (item : List Char → Option (α × List Char)) :
    Nat → List (List String × α) → List Char → Option (List (List String × α) × List Char)
  | 0, _, _ => none
  | bound + 1, before, cs =>
    match before, skipBlank cs with
    | [], '}' :: rest => some ([], rest)
    | _, rest => do
      let (pair, rest) ← takePair item rest
      match skipBlank rest with
      | ',' :: rest => takePairs item bound (pair :: before) rest
      | '}' :: rest => some ((pair :: before).reverse, rest)
      | _ => none

/-- The table of the pairs in braces. -/
def inlineTable (pairs : List (List String × Toml)) : Option Toml := do
  let members ← pairs.foldlM (fun members pair => assign pair.1 pair.2 members) []
  some (.table (membersToToml members))

/-- A value that holds at most `depth` arrays and inline tables inside each other. -/
def takeValue (depth : Nat) (cs : List Char) : Option (Toml × List Char) :=
  match cs with
  | [] => none
  | '"' :: rest => (takeString .basic rest).map fun (s, rest) => (.string s, rest)
  | '\'' :: rest => (takeString .literal rest).map fun (s, rest) => (.string s, rest)
  | 't' :: _ => takeWord (.boolean true) ['t', 'r', 'u', 'e'] cs
  | 'f' :: _ => takeWord (.boolean false) ['f', 'a', 'l', 's', 'e'] cs
  | '[' :: rest =>
    match depth with
    | 0 => none
    | depth + 1 => do
      let (items, rest) ← takeItems (takeValue depth) (rest.length + 1) [] rest
      some (.array items, rest)
  | '{' :: rest =>
    match depth with
    | 0 => none
    | depth + 1 => do
      let (pairs, rest) ← takePairs (takeValue depth) (rest.length + 1) [] rest
      some (← inlineTable pairs, rest)
  | _ => takeNumber cs

/-! ## Documents -/

/-- A document up to here, and the header under which it goes on. -/
structure Draft where
  members : Members := []
  header : List String := []

/-- A header in brackets. -/
def takeHeader (d : Draft) (cs : List Char) : Option (Draft × List Char) :=
  match cs with
  | '[' :: rest => do
    let (path, rest) ← takeKey maxDepth rest
    let rest ← takeChar ']' (← takeChar ']' rest)
    some ({ members := ← openArrayTable path d.members, header := path }, rest)
  | _ => do
    let (path, rest) ← takeKey maxDepth cs
    let rest ← takeChar ']' rest
    some ({ members := ← openTable path d.members, header := path }, rest)

/-- The lines of a document. The bound is the length of the text. -/
def takeDocument : Nat → Draft → List Char → Option Draft
  | 0, _, _ => none
  | bound + 1, d, cs =>
    match skipAll cs with
    | [] => some d
    | '[' :: rest => do
      let (d, rest) ← takeHeader d rest
      takeDocument bound d (← endLine rest)
    | rest => do
      let ((path, v), rest) ← takePair (takeValue maxDepth) rest
      let members ← assignIn d.header path v d.members
      takeDocument bound { d with members } (← endLine rest)

/-- The text without a byte order mark. -/
def dropMark : List Char → List Char
  | c :: cs => if c.toNat = 0xFEFF then cs else c :: cs
  | [] => []

/-- The members of the document that a text holds. -/
def parse? (text : String) : Option (List (String × Toml)) :=
  let cs := dropMark text.toList
  (takeDocument (cs.length + 1) {} cs).map fun d => membersToToml d.members

end InstallerBrowser.Toml
