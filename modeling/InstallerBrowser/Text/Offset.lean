/-!
# InstallerBrowser.Text.Offset

Offsets in a text, counted in bytes of UTF-8.

An offset stands between two characters, at the start or at the end of a text, or inside of a
character; `cutAt?` cuts a text at an offset of the first three kinds.
-/

namespace InstallerBrowser.Text

/-- The bytes of some characters. -/
def byteSize (cs : List Char) : Nat := cs.foldr (fun c n => c.utf8Size + n) 0

/-- The characters before and behind an offset, unless it is inside of a character or behind the
end. -/
def cutAt? : Nat → List Char → Option (List Char × List Char)
  | 0, cs => some ([], cs)
  | _ + 1, [] => none
  | n + 1, c :: cs =>
    if c.utf8Size ≤ n + 1 then
      (cutAt? (n + 1 - c.utf8Size) cs).map fun (before, after) => (c :: before, after)
    else none

end InstallerBrowser.Text
