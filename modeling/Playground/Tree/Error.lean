/-!
# What can go wrong in a tree
-/

namespace Playground

/-- Why an operation on a tree failed.  Each cause holds the path as it is reported. -/
inductive TreeError where
  | notFound (path : String)
  | notADirectory (path : String)
  | isADirectory (path : String)
  | invalidPath (path : String)
  | io (path cause : String)
  deriving DecidableEq, Repr

namespace TreeError

def message : TreeError → String
  | notFound path => "file not found: " ++ path
  | notADirectory path => "not a directory: " ++ path
  | isADirectory path => "is a directory: " ++ path
  | invalidPath path => "invalid path: " ++ path
  | io path cause => "io error at " ++ path ++ ": " ++ cause

def isNotFound : TreeError → Bool
  | notFound _ => true
  | _ => false

end TreeError

end Playground
