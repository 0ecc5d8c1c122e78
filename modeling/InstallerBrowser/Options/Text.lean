import InstallerBrowser.Json.Parser
import InstallerBrowser.Options.Basic

/-!
# InstallerBrowser.Options.Text

Options read straight from JSON text.

The text is read with the options in mind: a value that does not fit, or an option given twice,
is reported at the place where it was met, before the rest of the text is looked at. Members that
are no option are skipped without limit on their depth; in what is skipped, escapes and numbers
are checked for their form only.
-/

namespace InstallerBrowser.Options.Text

open InstallerBrowser.Json

/-! ## Readers -/

/-- What can be wrong with the text of options. -/
inductive Problem where
  | malformed (cause : Cause)
  | unfit (error : DecodeError)
deriving Repr, DecidableEq

/-- The wording of a problem. -/
def Problem.message : Problem → String
  | .malformed cause => cause.message
  | .unfit error => error.message

/-- The value read and the text that is left. -/
abbrev Reading (α : Type) := Except (Fault Problem) (α × List Char)

/-- A reader of JSON as a reader of options. -/
def lift {α : Type} (r : Read α) : Reading α :=
  match r with
  | .ok answer => .ok answer
  | .error fault => .error ⟨.malformed fault.cause, fault.left⟩

/-- A malformed text, behind the next byte. -/
def ahead {α : Type} (cause : Cause) (rest : List Char) : Reading α :=
  .error (.ahead (.malformed cause) rest)

/-- A value that does not fit, where the reader stands. -/
def unfit {α : Type} (error : DecodeError) (rest : List Char) : Reading α :=
  .error (.here (.unfit error) rest)

/-- Goes on with the value read and the text that is left. -/
def Reading.andThen {α β : Type} (r : Reading α) (next : α → List Char → Reading β) : Reading β :=
  match r with
  | .ok (value, rest) => next value rest
  | .error fault => .error fault

/-! ## Values that do not fit -/

/-- Reports the value at the front in place of what was expected: a scalar is taken first, an
array or an object is not. -/
def mismatch {α : Type} (expected : String) (cs : List Char) : Reading α :=
  match cs with
  | '[' :: _ => unfit (.invalidType .sequence expected) cs
  | '{' :: _ => unfit (.invalidType .map expected) cs
  | cs => (lift (readValue 0 cs)).andThen fun v rest => unfit (.invalidType v.found expected) rest

/-- A truth value. -/
def readBool (cs : List Char) : Reading Bool :=
  match skipBlank cs with
  | [] => ahead .eofInValue []
  | 't' :: rest => lift (readWord true ['r', 'u', 'e'] rest)
  | 'f' :: rest => lift (readWord false ['a', 'l', 's', 'e'] rest)
  | cs => mismatch "a boolean" cs

/-- Nothing, written as `null`. -/
def readNull (cs : List Char) : Reading Unit :=
  match skipBlank cs with
  | [] => ahead .eofInValue []
  | 'n' :: rest => lift (readWord () ['u', 'l', 'l'] rest)
  | cs => mismatch "unit" cs

/-- The name of a choice. -/
def readName {α : Type} (names : List String) (ofName? : String → Option α) (cs : List Char) :
    Reading α :=
  match skipBlank cs with
  | [] => ahead .eofInValue []
  | '"' :: rest =>
    (lift (readString rest)).andThen fun s rest =>
    match ofName? s with
    | some a => .ok (a, rest)
    | none => unfit (.unknownVariant s names) rest
  | cs => mismatch "variant identifier" cs

/-- A choice: its name, or an object with the name as its one key and no value. -/
def readChoice {α : Type} (names : List String) (ofName? : String → Option α) (cs : List Char) :
    Reading α :=
  match skipBlank cs with
  | [] => ahead .eofInValue []
  | '"' :: rest => readName names ofName? ('"' :: rest)
  | '{' :: rest =>
    (readName names ofName? rest).andThen fun a rest =>
    (lift (readColon rest)).andThen fun () rest =>
    (readNull rest).andThen fun () rest =>
    match skipBlank rest with
    | [] => .error (.here (.malformed .eofInObject) [])
    | '}' :: rest => .ok (a, rest)
    | rest => .error (.here (.malformed .expectedValue) rest)
  | cs => ahead .expectedValue cs

/-- The options with one of them set from the value at the front. -/
def readField (o : Options) (f : OptionField) (cs : List Char) : Reading Options :=
  match f with
  | .enableDebug => (readBool cs).andThen fun b rest => .ok ({ o with enableDebug := b }, rest)
  | .excludeTemps => (readBool cs).andThen fun b rest => .ok ({ o with excludeTemps := b }, rest)
  | .languageFilter =>
    (readChoice (LanguageFilter.choices.map (·.name)) LanguageFilter.ofName? cs).andThen
      fun c rest => .ok ({ o with languageFilter := c }, rest)
  | .collision =>
    (readChoice (Collision.choices.map (·.name)) Collision.ofName? cs).andThen
      fun c rest => .ok ({ o with collision := c }, rest)
  | .logsToFile => (readBool cs).andThen fun b rest => .ok ({ o with logsToFile := b }, rest)

/-! ## Skipping -/

/-- The text behind some digits, of which there has to be one. -/
def skipDigits (cs : List Char) : Option (List Char) :=
  match cs with
  | c :: rest => if c.isDigit then some (rest.dropWhile Char.isDigit) else none
  | [] => none

/-- The exponent of a number that is skipped, behind its `e`. -/
def skipExponent (cs : List Char) : Read Unit :=
  let cs :=
    match cs with
    | '+' :: rest => rest
    | '-' :: rest => rest
    | _ => cs
  match skipDigits cs with
  | some rest => .ok ((), rest)
  | none => .error (.here .invalidNumber cs.tail)

/-- What follows the whole part of a number that is skipped. -/
def skipFraction (cs : List Char) : Read Unit :=
  match cs with
  | '.' :: rest =>
    match skipDigits rest with
    | none => .error (.ahead .invalidNumber rest)
    | some ('e' :: rest) => skipExponent rest
    | some ('E' :: rest) => skipExponent rest
    | some rest => .ok ((), rest)
  | 'e' :: rest => skipExponent rest
  | 'E' :: rest => skipExponent rest
  | _ => .ok ((), cs)

/-- A number that is skipped, behind its sign. -/
def skipNumber (cs : List Char) : Read Unit :=
  match cs with
  | '0' :: c :: rest =>
    if c.isDigit then .error (.ahead .invalidNumber (c :: rest)) else skipFraction (c :: rest)
  | _ =>
    match skipDigits cs with
    | none => .error (.here .invalidNumber cs.tail)
    | some rest => skipFraction rest

/-- A string that is skipped, behind its first quote. The bound is the length of the text. -/
def skipString : Nat → List Char → Read Unit
  | 0, _ => .error (.here .eofInString [])
  | _ + 1, [] => .error (.here .eofInString [])
  | bound + 1, c :: rest =>
    if c = '"' then .ok ((), rest)
    else if c = '\\' then
      match rest with
      | [] => .error (.here .eofInString [])
      | e :: after =>
        if e = 'u' then (readUnit after).andThen fun _ rest => skipString bound rest
        else if ['"', '\\', '/', 'b', 'f', 'n', 'r', 't'].contains e then skipString bound after
        else .error ⟨.invalidEscape, byteCount rest - 1⟩
    else if c.toNat < 32 then .error (.here .controlCharacter (c :: rest))
    else skipString bound rest

/-- An array or an object that is being skipped. -/
inductive Frame where
  | list
  | object
deriving Repr, DecidableEq

/-- A key and its colon, in an object that is skipped. -/
def skipKey (cs : List Char) : Read Unit :=
  match skipBlank cs with
  | [] => .error (.ahead .eofInObject [])
  | '"' :: rest =>
    (skipString (rest.length + 1) rest).andThen fun () rest => readColon rest
  | rest => .error (.ahead .keyNotString rest)

/-- What follows a value, or the opening of a frame, in what is skipped: the frames that are
open behind it, or nothing once the outermost is closed. -/
def closeFrames : Nat → Bool → List Frame → List Char → Read (List Frame)
  | 0, _, frames, cs => .ok (frames, cs)
  | _ + 1, _, [], cs => .ok ([], cs)
  | bound + 1, comma, frame :: frames, cs =>
    let inside (rest : List Char) : Read (List Frame) :=
      match frame with
      | .list => .ok (frame :: frames, rest)
      | .object => (skipKey rest).andThen fun () rest => .ok (frame :: frames, rest)
    match skipBlank cs, frame with
    | [], .list => .error (.ahead .eofInList [])
    | [], .object => .error (.ahead .eofInObject [])
    | ']' :: rest, .list => closeFrames bound true frames rest
    | '}' :: rest, .object => closeFrames bound true frames rest
    | c :: rest, _ =>
      if comma then
        if c = ',' then inside rest
        else .error (.ahead (if frame = .list then .expectedListEnd else .expectedObjectEnd)
          (c :: rest))
      else inside (c :: rest)

/-- Skips a value inside the frames that are open. The bound is the length of the text. -/
def skipValue : Nat → List Frame → List Char → Read Unit
  | 0, _, _ => .error (.ahead .eofInValue [])
  | bound + 1, frames, cs =>
    let behind (comma : Bool) (frames : List Frame) (rest : List Char) : Read Unit :=
      (closeFrames (rest.length + 1) comma frames rest).andThen fun frames rest =>
      if frames.isEmpty then .ok ((), rest) else skipValue bound frames rest
    match skipBlank cs with
    | [] => .error (.ahead .eofInValue [])
    | 'n' :: rest =>
      (readWord () ['u', 'l', 'l'] rest).andThen fun () rest => behind true frames rest
    | 't' :: rest =>
      (readWord () ['r', 'u', 'e'] rest).andThen fun () rest => behind true frames rest
    | 'f' :: rest =>
      (readWord () ['a', 'l', 's', 'e'] rest).andThen fun () rest => behind true frames rest
    | '-' :: rest => (skipNumber rest).andThen fun () rest => behind true frames rest
    | '"' :: rest =>
      (skipString (rest.length + 1) rest).andThen fun () rest => behind true frames rest
    | '[' :: rest => behind false (.list :: frames) rest
    | '{' :: rest => behind false (.object :: frames) rest
    | c :: rest =>
      if c.isDigit then (skipNumber (c :: rest)).andThen fun () rest => behind true frames rest
      else .error (.ahead .expectedValue (c :: rest))

/-! ## The options -/

/-- Where the reader stands after it has given up on an object: behind blanks, and behind the
brace if the object ends there. -/
def afterObject (cs : List Char) : List Char :=
  match skipBlank cs with
  | '}' :: rest => rest
  | rest => rest

/-- The members of an object; an option may be given once. The bound is the length of the
text. -/
def readMembers : Nat → Bool → List OptionField → Options → List Char → Reading Options
  | 0, _, _, _, _ => ahead .eofInObject []
  | bound + 1, first, seen, o, cs =>
    (lift (nextMember first cs)).andThen fun more rest =>
    if more then
      (lift (readString rest)).andThen fun key rest =>
      match OptionField.ofName? key with
      | none =>
        (lift (readColon rest)).andThen fun () rest =>
        (lift (skipValue (rest.length + 1) [] rest)).andThen fun () rest =>
        readMembers bound false seen o rest
      | some f =>
        if seen.contains f then unfit (.duplicateField f.name) (afterObject rest)
        else
          (lift (readColon rest)).andThen fun () rest =>
          (readField o f rest).andThen fun o rest =>
          readMembers bound false (f :: seen) o rest
    else .ok (o, rest)

/-- The items of an array, one for each option in order, and the end of the array. -/
def readItems : Bool → List OptionField → Options → List Char → Reading Options
  | _, [], o, cs =>
    match skipBlank cs with
    | [] => ahead .eofInList []
    | ']' :: rest => .ok (o, rest)
    | ',' :: rest =>
      match skipBlank rest with
      | ']' :: rest => ahead .trailingComma (']' :: rest)
      | rest => ahead .trailingCharacters rest
    | rest => ahead .trailingCharacters rest
  | first, f :: fields, o, cs =>
    (lift (nextItem first cs)).andThen fun more rest =>
    if more then
      (readField o f rest).andThen fun o rest => readItems false fields o rest
    else .ok (o, rest)

/-- The options at the front of a text. -/
def readOptions (cs : List Char) : Reading Options :=
  match skipBlank cs with
  | [] => ahead .eofInValue []
  | '[' :: rest => readItems true OptionField.all {} rest
  | '{' :: rest => readMembers (rest.length + 1) true [] {} rest
  | cs => mismatch "struct SessionOptions" cs

/-- Options from a JSON text; what is wrong with another is told in words. -/
def parse (text : String) : Except String Options :=
  let cs := text.toList
  let reading : Reading Options :=
    (readOptions cs).andThen fun o rest =>
    (lift (readEnd rest)).andThen fun () rest => .ok (o, rest)
  match reading with
  | .ok (o, _) => .ok o
  | .error fault => .error (fault.cause.message ++ (fault.position cs).message)

end InstallerBrowser.Options.Text
