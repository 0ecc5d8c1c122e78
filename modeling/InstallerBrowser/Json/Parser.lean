import InstallerBrowser.Json.Basic
import InstallerBrowser.Text.Digit

/-!
# InstallerBrowser.Json.Parser

Reading JSON text.

A reader takes characters from the front of the text and answers with a value and the text that
is left, or with a `Fault`: what is wrong and how many bytes were left at that point. `parse`
reads a whole text, and turns the fault into a line and a column. A fault found while looking at
the next byte points behind that byte (`Fault.ahead`); one found after taking it points to where
the reader stands (`Fault.here`).

At most 127 arrays and objects may stand inside each other. Integers of up to 64 bits are kept
exactly; a longer one, one with a point or an exponent, and `-0` are read as floating-point
numbers, the digits beyond 64 bits being counted but not used.
-/

namespace InstallerBrowser.Json

/-! ## Faults -/

/-- What can be wrong with a JSON text. -/
inductive Cause where
  | eofInValue
  | eofInObject
  | eofInList
  | eofInString
  | expectedValue
  | expectedIdent
  | expectedColon
  | expectedListEnd
  | expectedObjectEnd
  | keyNotString
  | trailingComma
  | trailingCharacters
  | invalidNumber
  | numberOutOfRange
  | invalidEscape
  | loneSurrogate
  | unfinishedHexEscape
  | controlCharacter
  | recursionLimit
deriving Repr, DecidableEq

/-- The wording of a cause. -/
def Cause.message : Cause → String
  | .eofInValue => "EOF while parsing a value"
  | .eofInObject => "EOF while parsing an object"
  | .eofInList => "EOF while parsing a list"
  | .eofInString => "EOF while parsing a string"
  | .expectedValue => "expected value"
  | .expectedIdent => "expected ident"
  | .expectedColon => "expected `:`"
  | .expectedListEnd => "expected `,` or `]`"
  | .expectedObjectEnd => "expected `,` or `\x7d`"
  | .keyNotString => "key must be a string"
  | .trailingComma => "trailing comma"
  | .trailingCharacters => "trailing characters"
  | .invalidNumber => "invalid number"
  | .numberOutOfRange => "number out of range"
  | .invalidEscape => "invalid escape"
  | .loneSurrogate => "lone leading surrogate in hex escape"
  | .unfinishedHexEscape => "unexpected end of hex escape"
  | .controlCharacter => "control character (\\u0000-\\u001F) found while parsing a string"
  | .recursionLimit => "recursion limit exceeded"

/-- How many bytes a text takes. -/
def byteCount (cs : List Char) : Nat := cs.foldl (fun n c => n + c.utf8Size) 0

/-- What is wrong, and how many bytes of the text are left there. -/
structure Fault (ε : Type) where
  cause : ε
  left : Nat
deriving Repr

/-- A fault at the place where the reader stands. -/
def Fault.here {ε : Type} (cause : ε) (rest : List Char) : Fault ε := ⟨cause, byteCount rest⟩

/-- A fault behind the next byte, or at the end. -/
def Fault.ahead {ε : Type} (cause : ε) (rest : List Char) : Fault ε := ⟨cause, byteCount rest - 1⟩

/-- The value read and the text that is left. -/
abbrev Read (α : Type) := Except (Fault Cause) (α × List Char)

/-- Goes on with the value read and the text that is left. -/
def Read.andThen {α β : Type} (r : Read α) (next : α → List Char → Read β) : Read β :=
  match r with
  | .ok (value, rest) => next value rest
  | .error fault => .error fault

/-! ## Blanks and words -/

/-- The four blank characters between tokens. -/
def isSeparator (c : Char) : Bool := c == ' ' || c == '\n' || c == '\t' || c == '\r'

/-- The text from the next token on. -/
def skipBlank (cs : List Char) : List Char := cs.dropWhile isSeparator

/-- Takes the letters of a word. -/
def readWord {α : Type} (value : α) : List Char → List Char → Read α
  | [], cs => .ok (value, cs)
  | _ :: _, [] => .error (.here .eofInValue [])
  | w :: word, c :: cs =>
    if c = w then readWord value word cs else .error (.here .expectedIdent cs)

/-! ## Numbers -/

/-- The value of a digit. -/
def digitValue (c : Char) : Nat := c.toNat - 48

/-- Takes digits as long as the number they form stays at most `limit`: the number, how many
digits were taken, and the rest. -/
def takeDigits (limit : Nat) : Nat → Nat → List Char → Nat × Nat × List Char
  | acc, taken, [] => (acc, taken, [])
  | acc, taken, c :: cs =>
    if c.isDigit ∧ acc * 10 + digitValue c ≤ limit then
      takeDigits limit (acc * 10 + digitValue c) (taken + 1) cs
    else (acc, taken, c :: cs)

/-- The largest natural number that is kept exactly. -/
def maxNatural : Nat := Nat.pow 2 64 - 1

/-- `significand · 10 ^ exponent`, in floating-point steps: the significand is rounded first,
and then multiplied or divided by a rounded power of ten; below `10 ^ -308` a division by
`10 ^ 308` comes before. Too large a number has no value. -/
def fromParts (significand : Decimal.Magnitude) (exponent : Int) : Option Decimal.Magnitude :=
  if h : exponent < -308 then
    if significand.isZero then some significand
    else fromParts (significand.div (Decimal.nearest (Nat.pow 10 308) 1)) (exponent + 308)
  else if exponent < 0 then
    some (significand.div (Decimal.nearest (Nat.pow 10 (-exponent).toNat) 1))
  else if exponent ≤ 308 then
    let product := significand.mul (Decimal.nearest (Nat.pow 10 exponent.toNat) 1)
    if product.isTooLarge then none else some product
  else if significand.isZero then some significand
  else none
termination_by (-exponent).toNat
decreasing_by omega

/-- The end of a floating-point number. -/
def finishReal (isNegative : Bool) (significand : Nat) (exponent : Int) (rest : List Char) :
    Read JsonNumber :=
  match fromParts (Decimal.Magnitude.ofNat significand) exponent with
  | some x => .ok (.real isNegative x, rest)
  | none => .error (.here .numberOutOfRange rest)

/-- The largest exponent that is counted. -/
def maxExponent : Nat := Nat.pow 2 31 - 1

/-- The exponent of a number, behind its `e`. -/
def readExponent (isNegative : Bool) (significand : Nat) (start : Int) (cs : List Char) :
    Read JsonNumber :=
  let (down, cs) : Bool × List Char :=
    match cs with
    | '+' :: rest => (false, rest)
    | '-' :: rest => (true, rest)
    | _ => (false, cs)
  match cs with
  | [] => .error (.here .eofInValue [])
  | c :: rest =>
    if c.isDigit then
      let (exponent, _, rest) := takeDigits maxExponent (digitValue c) 1 rest
      let total := if down then start - exponent else start + exponent
      match rest with
      | d :: after =>
        if d.isDigit then
          if significand ≠ 0 ∧ ¬ down then .error (.here .numberOutOfRange after)
          else .ok (.real isNegative Decimal.Magnitude.zero, after.dropWhile Char.isDigit)
        else finishReal isNegative significand total rest
      | [] => finishReal isNegative significand total rest
    else .error (.here .invalidNumber rest)

/-- What may follow the digits of a floating-point number. -/
def afterDigits (isNegative : Bool) (significand : Nat) (exponent : Int) (cs : List Char) :
    Read JsonNumber :=
  match cs with
  | 'e' :: rest => readExponent isNegative significand exponent rest
  | 'E' :: rest => readExponent isNegative significand exponent rest
  | _ => finishReal isNegative significand exponent cs

/-- The digits behind the point. -/
def readFraction (isNegative : Bool) (significand : Nat) (start : Int) (cs : List Char) :
    Read JsonNumber :=
  let (significand, taken, rest) := takeDigits maxNatural significand 0 cs
  match rest with
  | [] =>
    if taken = 0 then .error (.ahead .eofInValue [])
    else afterDigits isNegative significand (start - taken) []
  | c :: _ =>
    if c.isDigit then
      afterDigits isNegative significand (start - taken) (rest.dropWhile Char.isDigit)
    else if taken = 0 then .error (.ahead .invalidNumber rest)
    else afterDigits isNegative significand (start - taken) rest

/-- An integer that is kept exactly, if it is in range. -/
def exactInteger (isNegative : Bool) (n : Nat) : JsonNumber :=
  if isNegative then
    if 1 ≤ n ∧ n ≤ Nat.pow 2 63 then .negative n else .real true (Decimal.Magnitude.ofNat n)
  else .natural n

/-- What may follow the leading digits of a number. -/
def afterInteger (isNegative : Bool) (n : Nat) (cs : List Char) : Read JsonNumber :=
  match cs with
  | '.' :: rest => readFraction isNegative n 0 rest
  | 'e' :: rest => readExponent isNegative n 0 rest
  | 'E' :: rest => readExponent isNegative n 0 rest
  | _ => .ok (exactInteger isNegative n, cs)

/-- A number behind its sign. -/
def readNumber (isNegative : Bool) (cs : List Char) : Read JsonNumber :=
  match cs with
  | [] => .error (.here .eofInValue [])
  | '0' :: rest =>
    match rest with
    | [] => afterInteger isNegative 0 []
    | c :: _ =>
      if c.isDigit then .error (.ahead .invalidNumber rest) else afterInteger isNegative 0 rest
  | c :: rest =>
    if c.isDigit then
      let (n, _, rest) := takeDigits maxNatural (digitValue c) 1 rest
      match rest with
      | [] => afterInteger isNegative n []
      | d :: _ =>
        if d.isDigit then
          let after := rest.dropWhile Char.isDigit
          let exponent : Int := rest.length - after.length
          match after with
          | '.' :: fraction => readFraction isNegative n exponent fraction
          | _ => afterDigits isNegative n exponent after
        else afterInteger isNegative n rest
    else .error (.here .invalidNumber rest)

/-! ## Strings -/

/-- The four digits of an escaped UTF-16 unit. Four bytes are taken, whatever they are. -/
def readUnit (cs : List Char) : Read Nat :=
  match cs with
  | a :: b :: c :: d :: rest =>
    match Text.hexValue? a, Text.hexValue? b, Text.hexValue? c, Text.hexValue? d with
    | some a, some b, some c, some d => .ok (((a * 16 + b) * 16 + c) * 16 + d, rest)
    | _, _, _, _ => .error ⟨.invalidEscape, byteCount cs - 4⟩
  | _ =>
    if byteCount cs < 4 then .error (.here .eofInString [])
    else .error ⟨.invalidEscape, byteCount cs - 4⟩

/-- A character written as one UTF-16 unit or as a pair of them, behind its `\u`. -/
def readUnicode (cs : List Char) : Read Char :=
  (readUnit cs).andThen fun high rest =>
  if 0xDC00 ≤ high ∧ high ≤ 0xDFFF then .error (.here .loneSurrogate rest)
  else if high < 0xD800 ∨ 0xDBFF < high then .ok (Char.ofNat high, rest)
  else
    match rest with
    | [] => .error (.here .eofInString [])
    | '\\' :: rest =>
      match rest with
      | [] => .error (.here .eofInString [])
      | 'u' :: rest =>
        (readUnit rest).andThen fun low rest =>
        if low < 0xDC00 ∨ 0xDFFF < low then .error (.here .loneSurrogate rest)
        else .ok (Char.ofNat (0x10000 + (high - 0xD800) * 0x400 + (low - 0xDC00)), rest)
      | _ => .error (.ahead .unfinishedHexEscape rest)
    | _ => .error (.ahead .unfinishedHexEscape rest)

/-- The character of an escape, behind its backslash. -/
def readEscape (cs : List Char) : Read Char :=
  match cs with
  | [] => .error (.here .eofInString [])
  | c :: rest =>
    if c = '"' ∨ c = '\\' ∨ c = '/' then .ok (c, rest)
    else if c = 'b' then .ok (Char.ofNat 8, rest)
    else if c = 'f' then .ok (Char.ofNat 12, rest)
    else if c = 'n' then .ok ('\n', rest)
    else if c = 'r' then .ok ('\r', rest)
    else if c = 't' then .ok ('\t', rest)
    else if c = 'u' then readUnicode rest
    else .error ⟨.invalidEscape, byteCount cs - 1⟩

/-- The characters of a string behind its first quote, added to those read before, which stand
in reverse. The bound is the length of the text. -/
def readChars : Nat → List Char → List Char → Read String
  | 0, _, _ => .error (.here .eofInString [])
  | _ + 1, _, [] => .error (.here .eofInString [])
  | bound + 1, before, c :: rest =>
    if c = '"' then .ok (String.ofList before.reverse, rest)
    else if c = '\\' then
      (readEscape rest).andThen fun c rest => readChars bound (c :: before) rest
    else if c.toNat < 32 then .error (.here .controlCharacter rest)
    else readChars bound (c :: before) rest

/-- A string behind its first quote. -/
def readString (cs : List Char) : Read String := readChars (cs.length + 1) [] cs

/-! ## Arrays and objects -/

/-- The comma between two items, or the end of the array: `true` if an item follows. -/
def nextItem (first : Bool) (cs : List Char) : Read Bool :=
  match skipBlank cs with
  | [] => .error (.ahead .eofInList [])
  | ']' :: rest => .ok (false, rest)
  | c :: rest =>
    if first then .ok (true, c :: rest)
    else if c = ',' then
      match skipBlank rest with
      | [] => .error (.ahead .eofInValue [])
      | ']' :: rest => .error (.ahead .trailingComma (']' :: rest))
      | rest => .ok (true, rest)
    else .error (.ahead .expectedListEnd (c :: rest))

/-- The comma between two members, or the end of the object: `true` if a member follows, whose
key is read up to its first quote. -/
def nextMember (first : Bool) (cs : List Char) : Read Bool :=
  match skipBlank cs with
  | [] => .error (.ahead .eofInObject [])
  | '}' :: rest => .ok (false, rest)
  | c :: rest =>
    if first then
      if c = '"' then .ok (true, rest) else .error (.ahead .keyNotString (c :: rest))
    else if c = ',' then
      match skipBlank rest with
      | [] => .error (.ahead .eofInValue [])
      | '"' :: rest => .ok (true, rest)
      | '}' :: rest => .error (.ahead .trailingComma ('}' :: rest))
      | rest => .error (.ahead .keyNotString rest)
    else .error (.ahead .expectedObjectEnd (c :: rest))

/-- The colon between a key and its value. -/
def readColon (cs : List Char) : Read Unit :=
  match skipBlank cs with
  | [] => .error (.ahead .eofInObject [])
  | ':' :: rest => .ok ((), rest)
  | rest => .error (.ahead .expectedColon rest)

/-- The items of an array behind its bracket; those read before stand in reverse. The bound is
the length of the text. -/
def readItems {α : Type} (item : List Char → Read α) :
    Nat → Bool → List α → List Char → Read (List α)
  | 0, _, _, _ => .error (.here .eofInList [])
  | bound + 1, first, before, cs =>
    (nextItem first cs).andThen fun more rest =>
    if more then
      (item rest).andThen fun value rest => readItems item bound false (value :: before) rest
    else .ok (before.reverse, rest)

/-- The members of an object behind its brace, as they are written; those read before stand in
reverse. The bound is the length of the text. -/
def readMembers {α : Type} (item : List Char → Read α) :
    Nat → Bool → List (String × α) → List Char → Read (List (String × α))
  | 0, _, _, _ => .error (.here .eofInObject [])
  | bound + 1, first, before, cs =>
    (nextMember first cs).andThen fun more rest =>
    if more then
      (readString rest).andThen fun key rest =>
      (readColon rest).andThen fun () rest =>
      (item rest).andThen fun value rest =>
      readMembers item bound false ((key, value) :: before) rest
    else .ok (before.reverse, rest)

/-! ## Values -/

/-- How many arrays and objects may stand inside each other. -/
def maxDepth : Nat := 127

/-- A value that holds at most `depth` arrays and objects inside each other. -/
def readValue (depth : Nat) (cs : List Char) : Read Json :=
  match skipBlank cs with
  | [] => .error (.ahead .eofInValue [])
  | 'n' :: rest => readWord .null ['u', 'l', 'l'] rest
  | 't' :: rest => readWord (.bool true) ['r', 'u', 'e'] rest
  | 'f' :: rest => readWord (.bool false) ['a', 'l', 's', 'e'] rest
  | '-' :: rest => (readNumber true rest).andThen fun n rest => .ok (.number n, rest)
  | '"' :: rest => (readString rest).andThen fun s rest => .ok (.string s, rest)
  | '[' :: rest =>
    match depth with
    | 0 => .error (.ahead .recursionLimit ('[' :: rest))
    | depth + 1 =>
      (readItems (readValue depth) (rest.length + 1) true [] rest).andThen fun items rest =>
      .ok (.array items, rest)
  | '{' :: rest =>
    match depth with
    | 0 => .error (.ahead .recursionLimit ('{' :: rest))
    | depth + 1 =>
      (readMembers (readValue depth) (rest.length + 1) true [] rest).andThen fun members rest =>
      .ok (.object (ofMembers members), rest)
  | c :: rest =>
    if c.isDigit then
      (readNumber false (c :: rest)).andThen fun n rest => .ok (.number n, rest)
    else .error (.ahead .expectedValue (c :: rest))

/-- Nothing but blanks up to the end of the text. -/
def readEnd (cs : List Char) : Read Unit :=
  match skipBlank cs with
  | [] => .ok ((), [])
  | rest => .error (.ahead .trailingCharacters rest)

/-! ## Places -/

/-- A line and a column of a text. -/
structure Position where
  line : Nat
  column : Nat
deriving Repr, DecidableEq

/-- The place behind the first `n` bytes: the line counts from one, the column counts the bytes
behind the last line break. -/
def Position.after (n : Nat) (cs : List Char) : Position := go n ⟨1, 0⟩ cs
where
  go (n : Nat) (p : Position) : List Char → Position
    | [] => p
    | c :: cs =>
      if n = 0 then p
      else if c = '\n' then go (n - 1) ⟨p.line + 1, 0⟩ cs
      else go (n - c.utf8Size) ⟨p.line, p.column + min n c.utf8Size⟩ cs

/-- The words that tell a place. -/
def Position.message (p : Position) : String :=
  " at line " ++ toString p.line ++ " column " ++ toString p.column

/-- The place of a fault in the text. -/
def Fault.position {ε : Type} (fault : Fault ε) (text : List Char) : Position :=
  Position.after (byteCount text - fault.left) text

/-- A fault of a text, in words. -/
def Fault.message (fault : Fault Cause) (text : List Char) : String :=
  fault.cause.message ++ (fault.position text).message

/-- The members of an object as they are written, where a text holds one object and no more. -/
def readObject (cs : List Char) : Read (List (String × Json)) :=
  match skipBlank cs with
  | '{' :: rest =>
    (readMembers (readValue (maxDepth - 1)) (rest.length + 1) true [] rest).andThen
      fun members rest =>
    (readEnd rest).andThen fun () rest => .ok (members, rest)
  | rest => .error (.ahead .expectedValue rest)

/-- A text that holds one value. -/
def readText (cs : List Char) : Read Json :=
  (readValue maxDepth cs).andThen fun value rest =>
  (readEnd rest).andThen fun () rest => .ok (value, rest)

/-- Reads a text that holds one value; what is wrong with another is told in words. -/
def parse (text : String) : Except String Json :=
  match readText text.toList with
  | .ok (value, _) => .ok value
  | .error fault => .error (fault.message text.toList)

end InstallerBrowser.Json
