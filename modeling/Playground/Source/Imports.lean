import Playground.Source.Token

/-!
# The imports of a source file

A file begins with its package clause and its import declarations, each a single spec or a list
of specs in parentheses; a spec is a path between quotes after an optional name.  Reading takes
one token at a time and ends at the first token that begins no import declaration.  What is no
spec is passed over.
-/

namespace Playground.Source

/-- Where the reader of import declarations is. -/
inductive HeadMode where
  /-- Between declarations. -/
  | between
  /-- After the word that begins a declaration. -/
  | declared
  /-- Between the specs of a list. -/
  | inList
  /-- After the name of a spec, inside a list or not. -/
  | named (inList : Bool)
  /-- After the last declaration. -/
  | done
  deriving DecidableEq, Repr

/-- Where a spec of a list or a single one leads. -/
def HeadMode.afterSpec (inList : Bool) : HeadMode := if inList then .inList else .between

/-- What a token does where a spec is expected: the path it imports, and where it leads. -/
def readSpec (inList : Bool) : Token → Option String × HeadMode
  | .text path => (some path, .afterSpec inList)
  | .ident _ => (none, .named inList)
  | .punct c => (none, if c = '.' then .named inList else .afterSpec inList)

/-- What a token does: the path it imports, and where it leads. -/
def readHead : HeadMode → Token → Option String × HeadMode
  | .between, t =>
    (none, if t = .punct ';' then .between
      else if t = .ident "import" then .declared
      else .done)
  | .declared, t => if t = .punct '(' then (none, .inList) else readSpec false t
  | .inList, t =>
    if t = .punct ')' then (none, .between)
    else if t = .punct ';' then (none, .inList)
    else readSpec true t
  | .named inList, .text path => (some path, .afterSpec inList)
  | .named inList, _ => (none, .afterSpec inList)
  | .done, _ => (none, .done)

/-- The paths that tokens import when the reader is in some mode. -/
def pathsFrom : HeadMode → List Token → List String
  | _, [] => []
  | mode, t :: ts =>
    let (path, next) := readHead mode t
    path.toList ++ pathsFrom next ts

/-- The paths that a source file imports, in order and with repetitions. -/
def importPaths (cs : List Char) : List String :=
  match tokens cs with
  | .ident word :: .ident _ :: ts => if word = "package" then pathsFrom .between ts else []
  | _ => []

/-- The path that stands for foreign code and names no package. -/
def foreignPath : String := "C"

def namesPackage (path : String) : Bool := path ≠ foreignPath && path ≠ ""

/-- The packages that some files import, each where it is met first. -/
def mergeImports (files : List (List Char)) : List String :=
  ((files.flatMap importPaths).filter namesPackage).eraseDups

end Playground.Source
