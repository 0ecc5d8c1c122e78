import InstallerBrowser.Screen.Canvas

/-!
# InstallerBrowser.Screen.Paragraph

Lines of text in a rectangle, broken between words or cut.

A line is broken (`wrapLine`) where the next word does not fit; a word that fits on no line is
broken anywhere. The blanks at a break are dropped up to the end of the line, and with `trim` also
those at the front of a line. Every line of the text gives one line at least.
-/

namespace InstallerBrowser

/-! ## Glyphs -/

/-- A cluster in a style. -/
structure Glyph where
  symbol : String
  style : Style := {}
deriving Repr, DecidableEq, Inhabited

namespace Glyph

/-- The columns of a glyph. -/
def width (g : Glyph) : Nat := Text.width g.symbol

/-- Whether lines may be broken at a glyph: it is blank or of no width, and does not join what
stands beside it. -/
def isBreak (g : Glyph) : Bool :=
  let cs := g.symbol.toList
  cs == [Char.ofNat 0x200B] || (cs.all Text.isBlank && cs != [Char.ofNat 0xA0])

/-- The columns of some glyphs. -/
def totalWidth (gs : List Glyph) : Nat := gs.foldr (fun g n => g.width + n) 0

end Glyph

/-- The glyphs of a line; line breaks are left out. -/
def Line.glyphs (base : Style) (line : Line) : List Glyph :=
  line.flatMap fun span =>
    let style := span.style.onto base
    ((Text.clusters span.text.toList).filter (· != ['\n'])).map fun cs =>
      { symbol := String.ofList cs, style }

/-! ## Breaking lines -/

/-- A line while it is broken. -/
structure Wrapping where
  /-- The lines that are finished, latest first. -/
  finished : List (List Glyph) := []
  /-- The line that is being filled. -/
  line : List Glyph := []
  /-- The blanks behind it. -/
  blanks : List Glyph := []
  /-- The word behind the blanks. -/
  word : List Glyph := []
  /-- Whether the glyph before was part of a word. -/
  inWord : Bool := false
deriving Repr, Inhabited

namespace Wrapping

/-- Whether the word so far, and the blanks before it, go to the line before a glyph is taken:
a word is at its end, or the line is empty and there is no room for more. -/
def isDue (w : Wrapping) (limit : Nat) (trim : Bool) (g : Glyph) : Bool :=
  let word := Glyph.totalWidth w.word
  let blanks := Glyph.totalWidth w.blanks
  (w.inWord && g.isBreak) ||
    (w.line.isEmpty &&
      (if trim then limit < word + g.width || limit < blanks + g.width
       else limit < word + blanks + g.width))

/-- Puts the word and the blanks before it at the end of the line; blanks at the front of a line
are dropped with `trim`. -/
def settle (w : Wrapping) (trim : Bool) : Wrapping :=
  let blanks := if w.line.isEmpty && trim then [] else w.blanks
  { w with line := w.line ++ blanks ++ w.word, blanks := [], word := [] }

/-- Whether a line ends before a glyph. -/
def isFull (w : Wrapping) (limit : Nat) (g : Glyph) : Bool :=
  let line := Glyph.totalWidth w.line
  limit ≤ line ||
    (0 < g.width && limit ≤ line + Glyph.totalWidth w.blanks + Glyph.totalWidth w.word)

/-- The blanks that are left behind a line on which so many columns are free. -/
def dropBlanks : Nat → List Glyph → List Glyph
  | _, [] => []
  | free, g :: rest => if free < g.width then g :: rest else dropBlanks (free - g.width) rest

/-- Ends the line. -/
def breakLine (w : Wrapping) (limit : Nat) : Wrapping :=
  { w with
    finished := w.line :: w.finished
    line := []
    blanks := dropBlanks (limit - Glyph.totalWidth w.line) w.blanks }

/-- Puts a glyph behind the word, or behind the blanks. -/
def push (w : Wrapping) (g : Glyph) : Wrapping :=
  if g.isBreak then { w with blanks := w.blanks ++ [g], inWord := false }
  else { w with word := w.word ++ [g], inWord := true }

/-- Takes one glyph. One that fits on no line is left out, and so is a blank at a break. -/
def step (limit : Nat) (trim : Bool) (w : Wrapping) (g : Glyph) : Wrapping :=
  if limit < g.width then w
  else
    let w := if w.isDue limit trim g then w.settle trim else w
    if w.isFull limit g then
      let w := w.breakLine limit
      if g.isBreak && w.blanks.isEmpty then w else w.push g
    else w.push g

/-- The lines, when all glyphs were taken. -/
def lines (w : Wrapping) (trim : Bool) : List (List Glyph) :=
  let onlyBlanks := w.line.isEmpty && w.word.isEmpty && !w.blanks.isEmpty
  let finished := if onlyBlanks then [] :: w.finished else w.finished
  let last := (w.settle trim).line
  let all := if last.isEmpty then finished else last :: finished
  if all.isEmpty then [[]] else all.reverse

end Wrapping

/-- The lines into which a line is broken. -/
def wrapLine (limit : Nat) (trim : Bool) (glyphs : List Glyph) : List (List Glyph) :=
  (glyphs.foldl (Wrapping.step limit trim) {}).lines trim

/-- A line without what does not fit; glyphs that fit on no line are left out. -/
def cutLine (limit : Nat) (glyphs : List Glyph) : List Glyph :=
  go limit (glyphs.filter fun g => g.width ≤ limit)
where
  go : Nat → List Glyph → List Glyph
    | _, [] => []
    | left, g :: rest => if left < g.width then [] else g :: go (left - g.width) rest

/-! ## Paragraphs -/

/-- Where the lines of a paragraph stand. -/
inductive Alignment where
  | left
  | center
deriving Repr, DecidableEq

/-- What is done with lines that are too long. -/
inductive Overflow where
  | cut
  | wrap (trim : Bool)
deriving Repr, DecidableEq

/-- Lines of text and how they are set. -/
structure Paragraph where
  lines : List Line
  style : Style := {}
  alignment : Alignment := .left
  overflow : Overflow := .cut
deriving Repr

namespace Paragraph

/-- The rows of a paragraph in so many columns. -/
def rows (p : Paragraph) (limit : Nat) : List (List Glyph) :=
  if limit = 0 then []
  else
    p.lines.flatMap fun line =>
      let glyphs := Line.glyphs {} line
      match p.overflow with
      | .cut => [cutLine limit glyphs]
      | .wrap trim => wrapLine limit trim glyphs

/-- The column at which a row starts. -/
def indent (a : Alignment) (limit width : Nat) : Nat :=
  match a with
  | .left => 0
  | .center => limit / 2 - width / 2

/-- Draws the glyphs of a row; those that take no column are left out. -/
def drawRow (y : Nat) : List Glyph → Nat → Canvas → Canvas
  | [], _, c => c
  | g :: rest, x, c =>
    if g.width = 0 then drawRow y rest x c
    else
      drawRow y rest (x + g.width)
        (c.draw x y fun cell => { cell with symbol := g.symbol }.restyle g.style)

/-- Draws a paragraph; rows that do not fit are left out. -/
def draw (p : Paragraph) (area : Rect) (c : Canvas) : Canvas :=
  let c := c.restyle area p.style
  if area.isEmpty then c
  else
    ((p.rows area.width).take area.height).zipIdx.foldl (fun c (row, i) =>
      drawRow (area.y + i) row
        (area.x + indent p.alignment area.width (Glyph.totalWidth row)) c) c

end Paragraph

end InstallerBrowser
