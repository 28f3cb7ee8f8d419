import Playground.FrontEnd
import Playground.Text.Visible

/-!
# What can go wrong in a build
-/

namespace Playground

def LoadError.message : LoadError → String
  | notFound importPath => "cannot find package \"" ++ importPath ++ "\""
  | noSourceFiles importPath => "no buildable source files in \"" ++ importPath ++ "\""
  | invalidImportPath importPath => "invalid import path \"" ++ importPath ++ "\""
  | tree cause => "filesystem error: " ++ cause.message

/-- The least number of workers that cannot be counted. -/
def workerLimit : Nat := UInt64.size / 8

/-- Why the work of a build broke down. -/
inductive Breakdown where
  /-- The front end broke down. -/
  | frontEnd (cause : String)
  /-- More workers were asked for than can be counted.  No build returns this: it brings down
  whoever asked for the build. -/
  | overstaffed
  deriving DecidableEq, Repr

instance : Coe String Breakdown := ⟨.frontEnd⟩

def Breakdown.message : Breakdown → String
  | frontEnd cause => cause
  | overstaffed =>
    "a semaphore may not have more than MAX_PERMITS permits (" ++ toString (workerLimit - 1) ++ ")"

/-- Why a build failed. -/
inductive BuildError where
  /-- A package cannot be read, or a unit names a dependency that is no package. -/
  | load (cause : LoadError)
  /-- The front end rejected a package. -/
  | compile (cause : CompileError)
  /-- Packages import each other. -/
  | cycle
  /-- A package was due before a unit that it needs. -/
  | missingDependency (importPath dependency : String)
  /-- The two variants are not made of the same packages. -/
  | variantMismatch (onlyOptimized onlyFull : List String)
  | worker (cause : Breakdown)
  | cancelled
  deriving DecidableEq, Repr

namespace BuildError

def message : BuildError → String
  | load cause => cause.message
  | compile cause => "compile error: " ++ cause.message
  | cycle => "import cycle detected"
  | missingDependency importPath dependency =>
    "internal error: " ++ importPath ++ " scheduled before dependency " ++ dependency
  | variantMismatch onlyOptimized onlyFull =>
    "internal error: variant builds differ (only optimized: " ++ Text.shownList onlyOptimized ++
      ", only full: " ++ Text.shownList onlyFull ++ ")"
  | worker cause => "internal error: compile worker failed: " ++ cause.message
  | cancelled => "build cancelled"

def isUserError : BuildError → Bool
  | load (.tree _) => false
  | load _ | compile _ | cycle => true
  | missingDependency _ _ | variantMismatch _ _ | worker _ | cancelled => false

end BuildError

end Playground
