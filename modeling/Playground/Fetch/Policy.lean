import Playground.Text.Lines
import Playground.Tree.Error

/-!
# What may be fetched

The first element of a remote import path is a host name, which has a dot in it.  A remote package
is fetched only from a host that is allowed; any other package cannot be fetched at all.
-/

namespace Playground

open Playground.Text

/-- Why a package could not be fetched. -/
inductive FetchError where
  /-- There was no answer, or none of use. -/
  | unreachable (importPath cause : String)
  | notFound (importPath : String)
  | policyDenied (importPath host : String)
  /-- What was fetched cannot be unpacked. -/
  | invalidArchive (importPath cause : String)
  /-- What was fetched cannot be stored. -/
  | tree (cause : TreeError)
  deriving DecidableEq, Repr

namespace FetchError

def message : FetchError → String
  | unreachable importPath cause => importPath ++ ": package host unreachable: " ++ cause
  | notFound importPath => "cannot find package \"" ++ importPath ++ "\""
  | policyDenied importPath host => importPath ++ ": host " ++ host ++ " is not allowed"
  | invalidArchive importPath cause => importPath ++ ": invalid package archive: " ++ cause
  | tree cause => "filesystem error: " ++ cause.message

/-- The package that a failure is about. -/
def importPath? : FetchError → Option String
  | unreachable importPath _ | notFound importPath | policyDenied importPath _
  | invalidArchive importPath _ => some importPath
  | tree _ => none

end FetchError

/-- The hosts that packages may be fetched from. -/
structure FetchPolicy where
  allowedHosts : List String
  deriving DecidableEq, Repr

namespace FetchPolicy

/-- The policy that holds unless another is given. -/
def default : FetchPolicy := ⟨["github.com"]⟩

/-- The host of a remote import path. -/
def hostOf? (importPath : String) : Option String :=
  let first := importPath.toList.takeWhile (· ≠ '/')
  if first.contains '.' then some (String.ofList first) else none

/-- Whether a package may be fetched. -/
def check (policy : FetchPolicy) (importPath : String) : Except FetchError Unit :=
  match hostOf? importPath with
  | none => .error (.notFound importPath)
  | some host =>
    if policy.allowedHosts.contains host then .ok () else .error (.policyDenied importPath host)

end FetchPolicy

end Playground
