import InstallerBrowser.Text.Split

/-!
# InstallerBrowser.Storage.Path

Path texts.

A path is a text of names with slashes between them. Empty names and the name `.` count for
nothing, but for a `.` at the very front. `fileName?`, `parent?`, `fileStem?` and `extension?`
look at the last name that counts; `join` puts a path behind a directory.
-/

namespace InstallerBrowser.Path

/-- Whether a path starts at the root. -/
def isAbsolute (path : String) : Bool := path.toList.head? == some '/'

/-- Whether a name counts for nothing behind the front of a path. -/
def isSkipped (name : List Char) : Bool := name.isEmpty || name == ['.']

/-- The names of a path without those at its end that count for nothing: the root, if the path
starts there, apart. -/
def significant (path : String) : List (List Char) :=
  if isAbsolute path then dropSkipped (Text.splitOn '/' path.toList).tail
  else
    match Text.splitOn '/' path.toList with
    | [] => []
    | first :: rest =>
      match dropSkipped rest with
      | [] => if first.isEmpty then [] else [first]
      | rest => first :: rest
where
  dropSkipped (names : List (List Char)) : List (List Char) :=
    (names.reverse.dropWhile isSkipped).reverse

/-- The last name of a path, unless there is none or it leads to the parent. -/
def fileName? (path : String) : Option String :=
  match (significant path).getLast? with
  | none => none
  | some name =>
    if name.isEmpty ∨ name = ['.'] ∨ name = ['.', '.'] then none else some (String.ofList name)

/-- The path without its last name. -/
def parent? (path : String) : Option String :=
  match significant path with
  | [] => none
  | names =>
    let rest := names.dropLast
    if isAbsolute path then
      some (String.ofList ('/' :: Text.joinOn '/' (significant.dropSkipped rest)))
    else
      match rest with
      | [] => some ""
      | first :: rest =>
        some (String.ofList (Text.joinOn '/' (first :: significant.dropSkipped rest)))

/-- A name cut at its last dot; a name that has none, or only one at its front, is not cut. -/
def splitDot (name : List Char) : List Char × Option (List Char) :=
  let tail := (name.reverse.takeWhile (· != '.')).reverse
  let front := name.take (name.length - tail.length - 1)
  if tail.length = name.length ∨ front.isEmpty then (name, none) else (front, some tail)

/-- The last name without its extension. -/
def fileStem? (path : String) : Option String :=
  (fileName? path).map fun name => String.ofList (splitDot name.toList).1

/-- What follows the last dot of the last name. -/
def extension? (path : String) : Option String :=
  (fileName? path).bind fun name => (splitDot name.toList).2.map String.ofList

/-- The names of a path that count, and whether it starts at the root. -/
def components (path : String) : Bool × List (List Char) :=
  match Text.splitOn '/' path.toList with
  | [] => (false, [])
  | first :: rest =>
    let names := rest.filter fun name => !isSkipped name
    (isAbsolute path, if first.isEmpty then names else first :: names)

/-- Whether two texts are the same path: they have the same names that count. -/
def same (a b : String) : Bool := components a == components b

/-- A path seen from a directory; an absolute path stays itself. -/
def join (dir path : String) : String :=
  if isAbsolute path then path
  else if dir.isEmpty ∨ dir.toList.getLast? = some '/' then dir ++ path
  else dir ++ "/" ++ path

end InstallerBrowser.Path
