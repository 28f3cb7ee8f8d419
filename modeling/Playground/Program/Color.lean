import Playground.Settings

/-!
# Colours

Some words of the program's output are coloured when the output is a terminal that shows colours,
as far as the environment tells, or when the environment asks for it.
-/

namespace Playground

open Playground.Text

/-- How a word is shown. -/
inductive Shade where
  | red
  | green
  | yellow
  | faint
  deriving DecidableEq, Repr

namespace Shade

/-- What switches a shade on. -/
def start : Shade → String
  | red => "\x1b[31m"
  | green => "\x1b[32m"
  | yellow => "\x1b[33m"
  | faint => "\x1b[2m"

/-- What switches a shade off: a colour gives way to that of the terminal, and faint words to plain
ones. -/
def stop : Shade → String
  | red | green | yellow => "\x1b[39m"
  | faint => "\x1b[0m"

/-- A text in a shade, where shades are shown. -/
def paint (shade : Shade) (shown : Bool) (s : String) : String :=
  if shown then shade.start ++ s ++ shade.stop else s

end Shade

namespace Environment

variable (env : Environment)

/-- The variables by which services that build programs make themselves known. -/
def serviceNames : List String :=
  ["CI_NAME", "GITHUB_ACTION", "GITLAB_CI", "NETLIFY", "TRAVIS", "CODEBUILD_SRC_DIR",
    "BUILDER_OUTPUT", "GITLAB_DEPLOYMENT", "NOW_GITHUB_DEPLOYMENT", "NOW_BUILDER",
    "BITBUCKET_DEPLOYMENT", "GERRIT_PROJECT", "SYSTEM_TEAMFOUNDATIONCOLLECTIONURI", "BITRISE_IO",
    "BUDDY_WORKSPACE_ID", "BUILDKITE", "CIRRUS_CI", "APPVEYOR", "CIRCLECI", "SEMAPHORE", "DRONE",
    "DSARI", "TDDIUM", "STRIDER", "TASKCLUSTER_ROOT_URL", "JENKINS_URL", "bamboo.buildKey",
    "GO_PIPELINE_NAME", "HUDSON_URL", "WERCKER", "MAGNUM", "NEVERCODE", "RENDER", "SAIL_CI",
    "SHIPPABLE"]

/-- The variables that colours depend on. -/
def colorNames : List String :=
  ["FORCE_COLOR", "CLICOLOR_FORCE", "NO_COLOR", "IGNORE_IS_TERMINAL", "TERM", "COLORTERM",
    "TERM_PROGRAM", "CLICOLOR", "CI"] ++ serviceNames

/-- Whether a variable is set to something other than zero. -/
def isOn (name : String) : Bool := env[name]?.any (· ≠ "0")

/-- Whether colours are asked for.  A word that is no number asks for them. -/
def forcesColor : Bool :=
  match env["FORCE_COLOR"]? with
  | none => env.isOn "CLICOLOR_FORCE"
  | some "" => true
  | some "false" => false
  | some word =>
    match Settings.readNumber word.toList with
    | .ok n => n ≠ 0
    | .error _ => true

/-- Whether colours are ruled out. -/
def forbidsColor : Bool := env.isOn "NO_COLOR" || env["TERM"]? == some "dumb"

/-- Whether the environment names a service that builds programs, which keeps their output for its
log. -/
def tellsOfService : Bool :=
  env["CI"]?.any (["true", "1", "woodpecker"].contains ·) ||
    serviceNames.any (env[·]?.isSome)

/-- Whether the environment tells of a terminal that shows colours, or of a service.  Every
terminal with a name shows them, the dumb one apart. -/
def tellsOfColor : Bool :=
  env["COLORTERM"]?.isSome || env["TERM"]?.any (· ≠ "dumb") ||
    env["TERM_PROGRAM"]?.any (["iTerm.app", "Apple_Terminal"].contains ·) ||
    env.isOn "CLICOLOR" || env.tellsOfService

/-- Whether an output shows colours. -/
def showsColor (isTerminal : Bool) : Bool :=
  env.forcesColor ||
    (!env.forbidsColor && (isTerminal || env.isOn "IGNORE_IS_TERMINAL") && env.tellsOfColor)

end Environment

end Playground
