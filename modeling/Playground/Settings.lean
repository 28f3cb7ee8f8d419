import Playground.Fetch.Policy
import Playground.Publish.Universe
import Playground.Tree.DiskPath

/-!
# Settings

Every setting has a default and can be given by a variable of the environment.  A variable that is
blank counts as not set.  Directories follow the base directory variables of the desktop, and are
found below the home directory without them.
-/

namespace Playground

open Playground.Text

abbrev Environment := Named String

/-- What is said of a variable that does not hold what it should. -/
inductive NumberFault where
  | notPositive
  | invalidDigit
  | tooLarge
  deriving DecidableEq, Repr

def NumberFault.message : NumberFault → String
  | notPositive => "must be greater than zero"
  | invalidDigit => "invalid digit found in string"
  | tooLarge => "number too large to fit in target type"

/-- A variable that does not hold what it should. -/
structure SettingsError where
  variableName : String
  value : String
  fault : NumberFault
  deriving DecidableEq, Repr

def SettingsError.message (e : SettingsError) : String :=
  "invalid value '" ++ e.value ++ "' for " ++ e.variableName ++ ": " ++ e.fault.message

namespace Environment

variable (env : Environment)

/-- The variables that settings are read from. -/
def names : List String :=
  ["PLAYBUILD_ROOT", "PLAYBUILD_LOCAL_PATH", "PLAYBUILD_MIRROR", "PLAYBUILD_ALLOWED_HOSTS",
    "PLAYBUILD_INSTRUCTION_TIMEOUT_SECS", "PLAYBUILD_PARALLELISM", "PLAYBUILD_EXCLUDE", "HOME",
    "XDG_DATA_HOME", "XDG_CACHE_HOME", "TMPDIR"]

def get? (name : String) : Option String := env[name]?.filter fun v => trim v.toList ≠ []

/-- A directory that is not the empty text. -/
def path? (name : String) : Option String := env[name]?.filter (· ≠ "")

/-- The name of the program's own directories. -/
def appName : String := "playbuild"

def homeDir : String := (env.path? "HOME").getD (env["TMPDIR"]?.getD "/tmp")

def dataDir : String :=
  DiskPath.join
    ((env.path? "XDG_DATA_HOME").getD (DiskPath.join (DiskPath.join env.homeDir ".local") "share"))
    appName

/-- The directory for files that can be made again. -/
def cacheDir : String :=
  DiskPath.join ((env.path? "XDG_CACHE_HOME").getD (DiskPath.join env.homeDir ".cache")) appName

end Environment

/-- The settings of the program. -/
structure Settings where
  /-- The directory of the library. -/
  root : String
  /-- A directory of packages to be used instead of fetching. -/
  localPath : Option String
  /-- The address of the mirror. -/
  mirror : Option String
  allowedHosts : List String
  /-- The seconds to wait for a client. -/
  instructionTimeout : Nat
  /-- The number of packages to compile at once; that of the processors when not given. -/
  parallelism : Option Nat
  /-- The packages that are not published. -/
  exclude : List String
  deriving DecidableEq, Repr

namespace Settings

/-- The items of a list with commas, trimmed, without the empty ones. -/
def items (value : String) : List String :=
  (((splitOn ',' value.toList).map trim).filter (· ≠ [])).map String.ofList

/-- One above the greatest number. -/
def numberLimit : Nat := UInt64.size

/-- The number that digits spell. -/
def readDigits (n : Nat) : List Char → Except NumberFault Nat
  | [] => .ok n
  | c :: cs =>
    if !c.isDigit then .error .invalidDigit
    else
      let next := 10 * n + (c.toNat - 48)
      if next < numberLimit then readDigits next cs else .error .tooLarge

/-- The number of a text: digits, perhaps after a plus sign. -/
def readNumber (cs : List Char) : Except NumberFault Nat :=
  match cs with
  | [] | ['+'] => .error .invalidDigit
  | '+' :: digits => readDigits 0 digits
  | digits => readDigits 0 digits

/-- The positive number that a variable holds. -/
def positive (name value : String) : Except SettingsError Nat :=
  match readNumber (trim value.toList) with
  | .error fault => .error ⟨name, value, fault⟩
  | .ok 0 => .error ⟨name, value, .notPositive⟩
  | .ok n => .ok n

/-- The positive number that a variable holds if it is set. -/
def positive? (env : Environment) (name : String) : Except SettingsError (Option Nat) :=
  match env.get? name with
  | none => .ok none
  | some value => (positive name value).map some

/-- The default wait for a client, in seconds. -/
def defaultTimeout : Nat := 5

/-- The settings that an environment gives. -/
def ofEnvironment (env : Environment) : Except SettingsError Settings := do
  let timeout ← positive? env "PLAYBUILD_INSTRUCTION_TIMEOUT_SECS"
  let parallelism ← positive? env "PLAYBUILD_PARALLELISM"
  return {
    root := (env.get? "PLAYBUILD_ROOT").getD (DiskPath.join env.dataDir "root")
    localPath := env.get? "PLAYBUILD_LOCAL_PATH"
    mirror := env.get? "PLAYBUILD_MIRROR"
    allowedHosts :=
      ((env.get? "PLAYBUILD_ALLOWED_HOSTS").map items).getD FetchPolicy.default.allowedHosts
    instructionTimeout := timeout.getD defaultTimeout
    parallelism
    exclude := ((env.get? "PLAYBUILD_EXCLUDE").map items).getD Universe.defaultExcludes }

/-- The fetching policy of the settings. -/
def fetchPolicy (s : Settings) : FetchPolicy := ⟨s.allowedHosts⟩

end Settings

end Playground
