import Playground.Bytes.Utf8
import Playground.Source.Imports
import Playground.Workspace

/-!
# Packages

A package is the source files that lie directly in its directory, together with the import paths
that they name.  `Package.load` reads one from a tree of sources.
-/

namespace Playground

open Playground.Bytes

/-- A package as it is read from a tree. -/
structure Package where
  importPath : String
  /-- The source files by name. -/
  files : Named ByteArray
  /-- The packages it imports, each once, in the order in which they are met. -/
  imports : List String

/-- Why a package cannot be read. -/
inductive LoadError where
  | notFound (importPath : String)
  | noSourceFiles (importPath : String)
  | invalidImportPath (importPath : String)
  | tree (cause : TreeError)
  deriving DecidableEq, Repr

/-- The part of a name before its extension `ext`, when it has that extension. -/
def stem? (name ext : List Char) : Option (List Char) :=
  if ('.' :: ext).isSuffixOf name then some (name.take (name.length - (ext.length + 1))) else none

/-- Whether a name is one of a source file with extension `ext`: it has a stem, which is not that
of a test, and does not begin with `.` or `_`. -/
def isSourceFile (name ext : String) : Bool :=
  match stem? name.toList ext.toList with
  | none => false
  | some stem =>
    stem ≠ [] && !"_test".toList.isSuffixOf stem && name.toList.head? != some '.' &&
      name.toList.head? != some '_'

def Entry.isSource (ext : String) (e : Entry) : Bool := !e.isDir && isSourceFile e.name ext

/-- Whether the directory of a package holds a source file. -/
def hasSources (sources : View) (ext importPath : String) : Bool :=
  match sources.listAt (packageDir importPath) with
  | .ok found => found.any (Entry.isSource ext)
  | .error _ => false

namespace Package

/-- Whether a text is an import path in its canonical form. -/
def isImportPath (importPath : String) : Bool :=
  Path.canonical? importPath == some importPath && importPath ≠ ""

/-- The content of some files of a directory, up to the first that cannot be read. -/
def readFiles (sources : View) (dir : String) : List String → Except TreeError (Named ByteArray)
  | [] => .ok ∅
  | name :: names => do
    let content ← sources.readAt (Path.join dir name)
    return (← readFiles sources dir names).insertIfNew name content

/-- The imports of a set of source files.  A file that is not text has none. -/
def importsOf (files : Named ByteArray) : List String :=
  Source.mergeImports (files.values.map fun content => (Utf8.decodeOrEmpty content).toList)

/-- Reads a package. -/
def load (sources : View) (ext importPath : String) : Except LoadError Package :=
  if !isImportPath importPath then .error (.invalidImportPath importPath)
  else
    let dir := packageDir importPath
    match sources.listAt dir with
    | .error e => .error (if e.isNotFound then .notFound importPath else .tree e)
    | .ok found =>
      match readFiles sources dir ((found.filter (Entry.isSource ext)).map Entry.name) with
      | .error e => .error (.tree e)
      | .ok files =>
        if files.isEmpty then .error (.noSourceFiles importPath)
        else .ok ⟨importPath, files, importsOf files⟩

end Package

end Playground
