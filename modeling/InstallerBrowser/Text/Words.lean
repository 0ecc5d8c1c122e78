/-!
# InstallerBrowser.Text.Words

Words of a command line.

Words are separated by spaces, tabs and line breaks. Single quotes keep everything between them,
double quotes keep everything but an escaped `$`, backquote, quote, backslash or line break, and
outside of quotes a backslash keeps the next character and swallows a line break. A `#` where a
word could start opens a comment up to the end of the line. A text that ends inside quotes or
behind a backslash has no words.
-/

namespace InstallerBrowser.Text

/-- Whether a character separates words. -/
def isWordGap (c : Char) : Bool := c == ' ' || c == '\t' || c == '\n'

/-- Where a reader of words stands. -/
inductive WordPlace where
  /-- Between words. -/
  | gap
  | comment
  /-- In a word, outside of quotes. -/
  | bare
  /-- Behind a backslash outside of quotes. -/
  | bareEscape
  | single
  | double
  /-- Behind a backslash between double quotes. -/
  | doubleEscape
deriving Repr, DecidableEq

/-- What a character of a word does outside of quotes: the place behind it, and the word so far,
in reverse. -/
def bareStep (word : List Char) (c : Char) : WordPlace × List Char :=
  if c = '"' then (.double, word)
  else if c = '\'' then (.single, word)
  else if c = '\\' then (.bareEscape, word)
  else (.bare, c :: word)

/-- The characters that a backslash escapes between double quotes. -/
def doubleEscapes : List Char := "$`\"\\".toList

/-- The words of a text, read from a place on; the word so far stands in reverse. -/
def wordsFrom : WordPlace → List Char → List Char → Option (List (List Char))
  | .gap, _, [] => some []
  | .gap, _, c :: cs =>
    if isWordGap c then wordsFrom .gap [] cs
    else if c = '#' then wordsFrom .comment [] cs
    else
      let (place, word) := bareStep [] c
      wordsFrom place word cs
  | .comment, _, [] => some []
  | .comment, _, c :: cs => wordsFrom (if c = '\n' then .gap else .comment) [] cs
  | .bare, word, [] => some [word.reverse]
  | .bare, word, c :: cs =>
    if isWordGap c then (wordsFrom .gap [] cs).map (word.reverse :: ·)
    else
      let (place, word) := bareStep word c
      wordsFrom place word cs
  | .bareEscape, _, [] => none
  | .bareEscape, word, c :: cs => wordsFrom .bare (if c = '\n' then word else c :: word) cs
  | .single, _, [] => none
  | .single, word, c :: cs =>
    if c = '\'' then wordsFrom .bare word cs else wordsFrom .single (c :: word) cs
  | .double, _, [] => none
  | .double, word, c :: cs =>
    if c = '"' then wordsFrom .bare word cs
    else if c = '\\' then wordsFrom .doubleEscape word cs
    else wordsFrom .double (c :: word) cs
  | .doubleEscape, _, [] => none
  | .doubleEscape, word, c :: cs =>
    let word :=
      if c = '\n' then word
      else if doubleEscapes.contains c then c :: word
      else c :: '\\' :: word
    wordsFrom .double word cs

/-- The words of a command line, unless a quote is left open. -/
def splitWords (text : String) : Option (List String) :=
  (wordsFrom .gap [] text.toList).map (·.map String.ofList)

end InstallerBrowser.Text
