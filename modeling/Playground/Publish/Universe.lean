import Playground.Graph

/-!
# The universe of a tree

All packages of a tree that can be published: the directories below the source directory that hold
source files.  Directories for tests, vendored code and hidden ones are not entered; those without
source files are, but are not listed.
-/

namespace Playground

namespace Universe

/-- The packages that are never published unless others are named. -/
def defaultExcludes : List String :=
  ["builtin", "internal/cpu", "net/http/pprof", "plugin", "runtime/cgo"]

/-- Whether a directory is not entered. -/
def isSkippedDir (name : String) : Bool :=
  name = "testdata" || name = "vendor" || name.toList.head? == some '.' ||
    name.toList.head? == some '_'

/-- The directories to be entered from one, the last of its listing first. -/
def subdirectories (path : String) (found : List Entry) : List String :=
  let names := (found.filter fun e => e.isDir && !isSkippedDir e.name).map Entry.name
  (names.map (Path.join path)).reverse

/-- Whether a directory is a package to be published. -/
def isListed (sources : View) (ext : String) (excluded : List String) (path : String) : Bool :=
  path ≠ "" && !excluded.contains path && hasSources sources ext path

/-- The packages in the directories that are pending and below them.  One directory more than
`budget` is listed at most. -/
def walk (sources : View) (ext : String) (excluded : List String) :
    (budget : Nat) → (pending : List String) → Except TreeError (List String)
  | _, [] => .ok []
  | budget, path :: pending =>
    let own := if isListed sources ext excluded path then [path] else []
    match sources.listAt (Path.join sourceDir path) with
    | .error e => .error e
    | .ok found =>
      match budget with
      | 0 => .ok own
      | budget + 1 =>
        (walk sources ext excluded budget (subdirectories path found ++ pending)).map (own ++ ·)

/-- All packages of a tree that can be published, in order. -/
def enumerate (sources : View) (ext : String) (excluded : List String) :
    Except TreeError (List String) :=
  if sources.isDirAt sourceDir then
    (walk sources ext excluded sources.breadth [""]).map ImportGraph.sortPaths
  else .ok []

end Universe

end Playground
