import InstallerBrowser.Text.Digit

/-!
# InstallerBrowser.Screen.Color

Colors, and how they are written.

A text that starts with `#` gives the shares of red, green and blue by two digits in base sixteen
each; any other text is a name, in capitals or not. A text that is neither leaves the color of
the terminal as it is (`Color.reset`).
-/

namespace InstallerBrowser

/-- A color of the terminal's palette, or one that is mixed. -/
inductive Color where
  /-- Whatever the terminal uses. -/
  | reset
  | black
  | red
  | green
  | yellow
  | blue
  | magenta
  | cyan
  | gray
  | darkGray
  | white
  /-- The shares of red, green and blue, below 256. -/
  | rgb (red green blue : Nat)
deriving Repr, DecidableEq, Inhabited

namespace Color

/-- A share written by two characters: two digits, or a plus and a digit; anything else is
nothing. -/
def share (a b : Char) : Nat :=
  match Text.hexValue? b with
  | none => 0
  | some low =>
    if a = '+' then low
    else
      match Text.hexValue? a with
      | some high => high * 16 + low
      | none => 0

/-- The color of the text behind the `#`, of which there may be several. -/
def ofHex (cs : List Char) : Color :=
  match cs.dropWhile (· == '#') with
  | [a, b, c, d, e, f] =>
    if [a, b, c, d, e, f].all fun c => c.toNat < 128 then
      .rgb (share a b) (share c d) (share e f)
    else .reset
  | _ => .reset

/-- A letter of a name in lower case. The kelvin sign is a capital `k`. -/
def lowerLetter (c : Char) : Char := if c.toNat = 0x212A then 'k' else c.toLower

/-- The color with a name. -/
def ofName (s : String) : Color :=
  match String.ofList (s.toList.map lowerLetter) with
  | "black" => .black
  | "red" => .red
  | "green" => .green
  | "yellow" => .yellow
  | "blue" => .blue
  | "magenta" => .magenta
  | "cyan" => .cyan
  | "gray" => .gray
  | "grey" => .gray
  | "darkgray" => .darkGray
  | "darkgrey" => .darkGray
  | "white" => .white
  | _ => .reset

/-- The color that a text stands for. -/
def ofText (s : String) : Color :=
  match s.toList with
  | '#' :: cs => ofHex cs
  | _ => ofName s

/-- A share in two digits. -/
def shareText (n : Nat) : String :=
  String.ofList [Nat.digitChar (n / 16), Nat.digitChar (n % 16)]

/-- The text of a color: its name, or a `#` and its shares. -/
def toText : Color → String
  | .reset => "Reset"
  | .black => "Black"
  | .red => "Red"
  | .green => "Green"
  | .yellow => "Yellow"
  | .blue => "Blue"
  | .magenta => "Magenta"
  | .cyan => "Cyan"
  | .gray => "Gray"
  | .darkGray => "DarkGray"
  | .white => "White"
  | .rgb r g b => "#" ++ shareText r ++ shareText g ++ shareText b

end Color

end InstallerBrowser
