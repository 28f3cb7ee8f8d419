import Playground.Text.Lines

/-!
# Written paths of the disk

Outside a tree a path is the text that the operating system is given: absolute when it starts
with `/`, otherwise relative to the working directory.  Repeated separators, and names that are a
single dot, are kept as they are written and have no meaning.
-/

namespace Playground.DiskPath

open Playground.Text

/-- Whether a path starts at the root of the disk. -/
def isAbsolute (path : String) : Bool := path.toList.head? == some '/'

/-- Whether a path says of its last name that it is a directory. -/
def endsInSeparator (path : String) : Bool := path.toList.getLast? == some '/'

/-- The path `rest` as seen from `base`. -/
def join (base rest : String) : String :=
  if isAbsolute rest || base = "" then rest
  else if endsInSeparator base then base ++ rest
  else base ++ "/" ++ rest

/-- A reversed path without what has no meaning at its start: separators, and dots that stand
alone after one. -/
def dropIdle : List Char → List Char
  | '/' :: cs => dropIdle cs
  | '.' :: '/' :: cs => dropIdle cs
  | cs => cs

/-- The path without what has no meaning at its end.  A path of separators alone becomes empty. -/
def trimEnd (cs : List Char) : List Char := (dropIdle cs.reverse).reverse

/-- The directory part and the last name of a path, when it has a name. -/
def split? (path : String) : Option (List Char × List Char) :=
  let cs := trimEnd path.toList
  let name := (cs.reverse.takeWhile (· ≠ '/')).reverse
  if name = [] || name = ['.'] then none else some (cs.take (cs.length - name.length), name)

/-- The directory that holds the last name of a path. -/
def parent? (path : String) : Option String :=
  (split? path).map fun (dir, _) =>
    let trimmed := trimEnd dir
    String.ofList (if trimmed = [] then dir.take 1 else trimmed)

/-- The directories above a path, nearest first, up to `depth` of them. -/
def aboveUpTo : (depth : Nat) → (path : String) → List String
  | 0, _ => []
  | depth + 1, path =>
    match parent? path with
    | none | some "" => []
    | some dir => dir :: aboveUpTo depth dir

/-- The directories above a path, nearest first.  Each has a name fewer than the one before it, so
there are no more of them than characters. -/
def above (path : String) : List String := aboveUpTo path.length path

/-- The last name of a path, unless it points upwards. -/
def fileName? (path : String) : Option String :=
  match split? path with
  | none => none
  | some (_, name) => if name = ['.', '.'] then none else some (String.ofList name)

/-- The path with another last name. -/
def withFileName (path name : String) : String :=
  match split? path with
  | none => join path name
  | some (dir, _) => String.ofList dir ++ name

/-- A name without its extension: what stands before the last dot, unless that dot is the first
character. -/
def stem (name : List Char) : List Char :=
  let tail := (name.reverse.takeWhile (· ≠ '.')).reverse
  let front := name.take (name.length - tail.length - 1)
  if front = [] then name else front

/-- The path with an extension added to the stem of its last name.  A name that points upwards has
no stem, and the path stays as it is. -/
def setExtension (path extension : String) : String :=
  match split? path with
  | none => path
  | some (dir, name) =>
    if name = ['.', '.'] then path
    else String.ofList (dir ++ stem name ++ '.' :: extension.toList)

/-- The path with another extension of its last name: as much as the old one is long is taken off
the end of the path before the new one is set. -/
def withExtension (path extension : String) : String :=
  match split? path with
  | none => path
  | some (_, name) =>
    if name = ['.', '.'] then path
    else
      let cs := path.toList
      let old := name.length - (stem name).length - 1
      setExtension (String.ofList (cs.take (cs.length - old))) extension

end Playground.DiskPath
