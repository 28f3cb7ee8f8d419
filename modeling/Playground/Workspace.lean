import Playground.Tree.Basic

/-!
# Workspaces

A workspace holds the library sources, which are only read, the sources of one session, which
override them, and a scratch tree for the compiler.  The sources of the package with import path
`p` lie in the directory `src/p`.
-/

namespace Playground

/-- The directory of all package sources in a tree. -/
def sourceDir : String := "src"

/-- The directory of a package in a tree. -/
def packageDir (importPath : String) : String := Path.join sourceDir importPath

/-- The trees one session works with. -/
structure Workspace where
  /-- The library sources. -/
  root : Tree
  /-- The fetched and submitted sources. -/
  path : Tree
  /-- The compiler's scratch space. -/
  temporary : MemoryTree

namespace Workspace

/-- A workspace without sources of its own. -/
def new (root : Tree) : Workspace := ⟨root, .memory ∅, ∅⟩

/-- A workspace in which the packages of `localTree` are visible beside those of the session. -/
def withLocal (root localTree : Tree) : Workspace :=
  ⟨root, .mountAt (.memory ∅) sourceDir localTree, ∅⟩

/-- The sources as builds read them. -/
def sources (w : Workspace) : View := .overlay [w.path.view, w.root.view]

/-- Writes files into a directory, up to the first that cannot be written. -/
def writeFiles (dir : String) : Tree → List (String × ByteArray) → Tree × Except TreeError Unit
  | tree, [] => (tree, .ok ())
  | tree, (name, content) :: files =>
    match tree.write content (Path.join dir name) with
    | (tree, .error e) => (tree, .error e)
    | (tree, .ok ()) => writeFiles dir tree files

/-- Writes the files of a package into the sources of the session. -/
def addPackage (w : Workspace) (importPath : String) (files : List (String × ByteArray)) :
    Workspace × Except TreeError Unit :=
  let dir := packageDir importPath
  match w.path.createDirs dir with
  | (path, .error e) => ({ w with path }, .error e)
  | (path, .ok ()) => (writeFiles dir path files).map (fun path => { w with path }) id

end Workspace

end Playground
