import InstallerBrowser.Text.Blank
import InstallerBrowser.Text.Offset

/-!
# InstallerBrowser.Dialog.LineEdit

A line of text that is edited.

The cursor is an offset in bytes. One behind the end counts as the end. An operation that works at
a cursor inside of a character has no result; a line that starts with its cursor between two
characters never gets there.
-/

namespace InstallerBrowser

/-- A line of text and a cursor, as an offset in bytes. -/
structure LineEdit where
  text : String := ""
  cursor : Nat := 0
deriving Repr, DecidableEq, Inhabited

namespace LineEdit

/-- A line with the cursor at its end. -/
def ofText (text : String) : LineEdit := { text, cursor := text.utf8ByteSize }

/-- The line with its cursor at the end, if that was behind it. -/
def clamp (e : LineEdit) : LineEdit := { e with cursor := min e.cursor e.text.utf8ByteSize }

/-- The characters before and behind the cursor. -/
def halves? (e : LineEdit) : Option (List Char × List Char) := Text.cutAt? e.cursor e.text.toList

/-- Whether a character stands between two segments of a path. -/
def isSeparator (c : Char) : Bool := c == '/' || c == '\\' || Text.isBlank c

/-- Inserts characters at the cursor. -/
def insertAll? (e : LineEdit) (cs : List Char) : Option LineEdit :=
  e.halves?.map fun (before, after) =>
    { text := String.ofList (before ++ cs ++ after), cursor := e.cursor + Text.byteSize cs }

/-- Inserts a character at the cursor. -/
def insert? (e : LineEdit) (c : Char) : Option LineEdit := e.insertAll? [c]

/-- Inserts a text at the cursor, with a blank for each line break. -/
def paste? (e : LineEdit) (text : String) : Option LineEdit :=
  e.insertAll? (text.toList.map fun c => if c == '\n' || c == '\r' then ' ' else c)

/-- The offset of the last of some characters, at whose end the cursor stands. -/
def lastOffset (e : LineEdit) (before : List Char) : Nat :=
  match before.getLast? with
  | some c => e.cursor - c.utf8Size
  | none => 0

/-- Removes the character before the cursor. -/
def backspace? (e : LineEdit) : Option LineEdit :=
  e.halves?.map fun (before, after) =>
    { text := String.ofList (before.dropLast ++ after), cursor := e.lastOffset before }

/-- Removes the character behind the cursor. -/
def delete? (e : LineEdit) : Option LineEdit :=
  e.halves?.map fun (before, after) => { e with text := String.ofList (before ++ after.drop 1) }

/-- Moves the cursor over the character before it. -/
def left? (e : LineEdit) : Option LineEdit :=
  e.halves?.map fun (before, _) => { e with cursor := e.lastOffset before }

/-- Moves the cursor over the character behind it. -/
def right? (e : LineEdit) : Option LineEdit :=
  e.halves?.map fun (_, after) =>
    match after with
    | [] => e
    | c :: _ => { e with cursor := e.cursor + c.utf8Size }

/-- Moves the cursor to the start. -/
def toStart (e : LineEdit) : LineEdit := { e with cursor := 0 }

/-- Moves the cursor to the end. -/
def toEnd (e : LineEdit) : LineEdit := { e with cursor := e.text.utf8ByteSize }

/-- The front part of a path, up to the last segment of it and what separates that from the
end. -/
def withoutLastSegment (before : List Char) : List Char :=
  ((before.reverse.dropWhile isSeparator).dropWhile fun c => !isSeparator c).reverse

/-- Removes the segment of a path before the cursor, and what separates it from the cursor. -/
def deleteSegment? (e : LineEdit) : Option LineEdit :=
  e.halves?.map fun (before, after) =>
    let kept := withoutLastSegment before
    { text := String.ofList (kept ++ after), cursor := Text.byteSize kept }

/-- Removes all that is before the cursor. -/
def deleteToStart? (e : LineEdit) : Option LineEdit :=
  e.halves?.map fun (_, after) => { text := String.ofList after, cursor := 0 }

/-! ## Runs -/

/-- An operation on a line. -/
inductive Operation where
  | insert (c : Char)
  | paste (text : String)
  | backspace
  | delete
  | left
  | right
  | toStart
  | toEnd
  | deleteSegment
  | deleteToStart
deriving Repr, DecidableEq

/-- The line after an operation whose cursor is not behind the end. -/
def perform? (e : LineEdit) : Operation → Option LineEdit
  | .insert c => e.insert? c
  | .paste text => e.paste? text
  | .backspace => e.backspace?
  | .delete => e.delete?
  | .left => e.left?
  | .right => e.right?
  | .toStart => some e.toStart
  | .toEnd => some e.toEnd
  | .deleteSegment => e.deleteSegment?
  | .deleteToStart => e.deleteToStart?

/-- The line after an operation. -/
def step? (e : LineEdit) (op : Operation) : Option LineEdit := e.clamp.perform? op

/-- The line after a sequence of operations. -/
def run? (e : LineEdit) (ops : List Operation) : Option LineEdit := ops.foldlM step? e

end LineEdit

end InstallerBrowser
