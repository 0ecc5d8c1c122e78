/-!
# InstallerBrowser.Text.Split

Cutting a text at a mark.

`splitOn` gives the parts between the marks, the empty ones included, so that there is always one
more than there are marks. `joinOn` puts them together again (`joinOn_splitOn`).
-/

namespace InstallerBrowser.Text

/-- The parts of some characters between the marks; without a mark there is one part. -/
def splitOn (mark : Char) : List Char → List (List Char)
  | [] => [[]]
  | c :: cs =>
    if c = mark then [] :: splitOn mark cs
    else
      match splitOn mark cs with
      | [] => [[c]]
      | part :: rest => (c :: part) :: rest

/-- The parts with a mark between each two. -/
def joinOn (mark : Char) : List (List Char) → List Char
  | [] => []
  | [part] => part
  | part :: rest => part ++ mark :: joinOn mark rest

theorem joinOn_cons_cons (mark c : Char) (part : List Char) (rest : List (List Char)) :
    joinOn mark ((c :: part) :: rest) = c :: joinOn mark (part :: rest) := by
  cases rest <;> rfl

theorem splitOn_ne_nil (mark : Char) (cs : List Char) : splitOn mark cs ≠ [] := by
  cases cs with
  | nil => simp [splitOn]
  | cons c cs =>
    simp only [splitOn]
    split
    · simp
    · split <;> simp

theorem joinOn_splitOn (mark : Char) (cs : List Char) : joinOn mark (splitOn mark cs) = cs := by
  induction cs with
  | nil => rfl
  | cons c cs ih =>
    simp only [splitOn]
    split
    · next h =>
      cases hs : splitOn mark cs with
      | nil => exact absurd hs (splitOn_ne_nil mark cs)
      | cons part rest =>
        rw [hs] at ih
        simp only [joinOn, List.nil_append]
        rw [ih, h]
    · cases hs : splitOn mark cs with
      | nil => exact absurd hs (splitOn_ne_nil mark cs)
      | cons part rest =>
        rw [hs] at ih
        simp only [joinOn_cons_cons, ih]

end InstallerBrowser.Text
