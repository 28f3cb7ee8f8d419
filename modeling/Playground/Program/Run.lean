import Playground.Bundle
import Playground.Fetch.Mirror
import Playground.Program.Color
import Playground.Program.CommandLine
import Playground.Program.Failure
import Playground.Program.Report
import Playground.Store.WebBucket
import Playground.Transport
import Playground.Tree.Copy

/-!
# The program

What the program does with a command line, given what it finds around it.  Nothing here depends on
the time; how long the work took is told when its report is written.
-/

namespace Playground

open Playground.Json

/-- What the program finds around it. -/
structure Surroundings where
  environment : Environment
  disk : Disk
  web : Web
  /-- What comes on the standard input. -/
  inbound : Inbound
  /-- The mark of the process. -/
  processMark : String
  /-- The number of processors. -/
  processors : Nat
  /-- Whether the standard output is a terminal. -/
  outputIsTerminal : Bool := false
  /-- Whether the standard error output is a terminal. -/
  errorsAreTerminal : Bool := false

/-- Whether the standard output shows colours. -/
def Surroundings.outputShades (around : Surroundings) : Bool :=
  around.environment.showsColor around.outputIsTerminal

/-- Whether the standard error output shows colours. -/
def Surroundings.errorShades (around : Surroundings) : Bool :=
  around.environment.showsColor around.errorsAreTerminal

/-- What the program leaves. -/
structure Ending where
  exitCode : Nat
  /-- The standard output, given how many nanoseconds the work took. -/
  output : Nat → String
  errors : String
  disk : Disk

namespace Program

def success (shades : Bool) (line : String) : String := Shade.green.paint shades "✓" ++ " " ++ line

def warning (shades : Bool) (line : String) : String :=
  Shade.yellow.paint shades "⚠" ++ " " ++ Shade.yellow.paint shades line ++ "\n"

def failure (shades : Bool) (line : String) : String :=
  Shade.red.paint shades "✗" ++ " " ++ Shade.red.paint shades line ++ "\n"

def unlines (lines : List String) : String := "".intercalate (lines.map (· ++ "\n"))

def setting (label value : String) : String := "  " ++ label ++ ": " ++ value

/-- A figure of a report. -/
def figure (shades : Bool) (label value : String) : String :=
  setting (Shade.faint.paint shades label) value

def done (disk : Disk) (output : Nat → List String) : Ending :=
  ⟨0, fun elapsed => unlines (output elapsed), "", disk⟩

def failed (disk : Disk) (failure : String) (causes : List String) : Ending :=
  ⟨1, fun _ => "", Failure.text failure causes, disk⟩

/-- The ending of work that broke down. -/
def aborted (disk : Disk) (cause : String) : Ending :=
  ⟨101, fun _ => "", "error: " ++ cause ++ "\n", disk⟩

/-- The context of the program's builds: a scratch tree that holds nothing. -/
def freshContext : BuildContext MemoryTree := ⟨∅, false, []⟩

/-! ### Needs -/

/-- The settings of an invocation: a root on the command line comes before the one of the
environment. -/
def settingsFor (invocation : Invocation) (s : Settings) : Settings :=
  { s with root := invocation.root.getD s.root }

/-- The written paths at and below which a command reads and writes. -/
def placesOf (s : Settings) : Command → List String
  | .info => []
  | .build _ _ => [s.root]
  | .publish _ (.directory path) table _ => [s.root, path, table, LookupTable.draftPath table]
  | .publish _ (.address _) table _ => [s.root, table, LookupTable.draftPath table]
  | .session localPath _ _ => s.root :: (localPath.orElse fun _ => s.localPath).toList

/-- How many nanoseconds a command waits for a client, if it serves one. -/
def patienceOf (s : Settings) : Command → Option Nat
  | .session _ _ timeout => some (timeout.getD (s.instructionTimeout * Duration.second))
  | _ => none

/-- What the program has to be shown of its surroundings. -/
structure Needs where
  places : List String
  patience : Option Nat

/-- The needs of a command line. -/
def needs (environment : Environment) (words : List String) : Needs :=
  match CommandLine.read words, Settings.ofEnvironment environment with
  | .ok invocation, .ok s =>
    let s := settingsFor invocation s
    ⟨placesOf s invocation.command, patienceOf s invocation.command⟩
  | _, _ => ⟨[], none⟩

/-! ### Configuration -/

/-- Shows the settings. -/
def info (around : Surroundings) (s : Settings) : Ending :=
  done around.disk fun _ => [
    "Configuration:",
    setting "Root" s.root,
    setting "Local packages" (s.localPath.getD "(none)"),
    setting "Mirror" (s.mirror.getD "(none)"),
    setting "Allowed hosts" (", ".intercalate s.allowedHosts),
    setting "Instruction timeout" (Duration.text s.instructionTimeout),
    setting "Parallelism" (toString (s.parallelism.getD around.processors)),
    setting "Excluded" (", ".intercalate s.exclude),
    setting "Data dir" around.environment.dataDir,
    setting "Cache dir" around.environment.cacheDir]

/-! ### Workers -/

/-- How the program builds. -/
def schedule (around : Surroundings) (s : Settings) : Schedule :=
  { Schedule.inOrder with parallelism := s.parallelism.getD around.processors }

/-- The ending of work whose workers cannot be counted. -/
def overstaffed (around : Surroundings) : Ending :=
  aborted around.disk Breakdown.overstaffed.message

/-! ### Building -/

/-- The digests of a package as a JSON value. -/
def packageValue (package : RenderedPackage) : Value :=
  .object [("hash_full", Message.digestValue package.full.digest),
    ("hash_optimized", Message.digestValue package.optimized.digest),
    ("size_full", .nat package.full.bytes.size)]

/-- The report of a build. -/
def buildReport (shades json : Bool) (rendered : RenderedSet) (elapsed : Nat) : List String :=
  if json then [(Message.mapValue packageValue rendered).pretty]
  else
    success shades ("Built " ++ toString rendered.size ++ " package(s)") ::
      rendered.toList.map (fun (path, package) => "  • " ++ Report.rendered path package) ++
      [figure shades "Time" (Report.elapsed elapsed)]

/-- Builds packages of the library. -/
def build (around : Surroundings) (s : Settings) (packages : List String) (json : Bool) : Ending :=
  let w := Workspace.new (.disk s.root around.disk)
  let (result, _, _) := VariantSessions.new.build Bundle.frontEnd (schedule around s) w.sources
    sourceExt packages freshContext
  match result with
  | .error (.worker .overstaffed) => overstaffed around
  | .error e => failed around.disk "Build failed" e.chain
  | .ok units =>
    match RenderedSet.render units with
    | .error e => failed around.disk "Failed to render modules" [e.message]
    | .ok rendered => done around.disk (buildReport around.outputShades json rendered)

/-! ### Publishing -/

/-- The report of a publication. -/
def publishReport (shades json : Bool) (r : PublishReport) (elapsed : Nat) : List String :=
  if json then
    [(Value.object [("elapsed_ms", .nat (elapsed / 1000000)), ("packages", .nat r.packages),
      ("table", .string r.tablePath), ("uploaded", .nat r.uploaded)]).pretty]
  else
    [success shades ("Published " ++ toString r.packages ++ " package(s)"),
      figure shades "Uploaded" (toString r.uploaded), figure shades "Table" r.tablePath,
      figure shades "Time" (Report.elapsed elapsed)]

def publishTo (bucket : Bucket β) (state : β) (around : Surroundings) (s : Settings)
    (w : Workspace) (packages : List String) (table : String) (json : Bool) : Ending :=
  let settings : Publisher.Settings := ⟨sourceExt, table, schedule around s, .inOrder⟩
  let depot : Depot β := ⟨state, around.disk⟩
  let (result, _, depot) :=
    if packages = [] then
      Publisher.publishRoot Bundle.frontEnd bucket settings w s.exclude freshContext depot
    else Publisher.publishAll Bundle.frontEnd bucket settings w packages freshContext depot
  match result with
  | .error (.build (.worker .overstaffed)) => overstaffed around
  | .error e => failed depot.disk "Publish failed" e.chain
  | .ok r => done depot.disk (publishReport around.outputShades json r)

/-- Publishes packages of the library. -/
def publish (around : Surroundings) (s : Settings) (packages : List String)
    (target : PublishTarget) (table : String) (json : Bool) : Ending :=
  let source := DiskPath.join s.root sourceDir
  match MemoryTree.empty.copyFrom around.disk source sourceDir with
  | (_, .error e) => failed around.disk ("Failed to load library sources: " ++ source) e.chain
  | (tree, .ok _) =>
    let w := Workspace.new (.memory tree)
    match target with
    | .directory path =>
      publishTo (directoryBucket around.processMark path) () around s w packages table json
    | .address url => publishTo (webBucket around.web url) [] around s w packages table json

/-! ### Sessions -/

/-- What is said when remote imports cannot be fetched. -/
def noMirrorWarning (shades : Bool) : String :=
  warning shades "No package mirror configured; remote imports will not resolve"

/-- The ending of a session. -/
def sessionEnding (around : Surroundings) (warning : String) (messages : List Message)
    (result : Except SessionError SessionSummary) : Ending :=
  let output := Session.outboundText messages
  match result with
  | .ok _ => ⟨0, fun _ => output, warning, around.disk⟩
  | .error e =>
    let line := failure around.errorShades ("Session failed: " ++ e.message)
    ⟨1, fun _ => output, warning ++ line ++ Failure.text "Session failed" e.chain, around.disk⟩

/-- Serves a client with a host. -/
def serve (host : Host η) (state : η) (warning : String) (around : Surroundings) (s : Settings)
    (w : Workspace) : Ending :=
  let settings : SessionSettings := ⟨s.fetchPolicy, s.localPath.isNone, schedule around s⟩
  let (result, after) := Session.serveLines Bundle.frontEnd host settings around.inbound false
    ⟨w, state, freshContext, []⟩
  match result with
  | .error (.build (.worker .overstaffed)) => overstaffed around
  | _ => sessionEnding around warning after.messages result

/-- Serves a client. -/
def session (around : Surroundings) (s : Settings) : Ending :=
  let root := Tree.disk s.root around.disk
  let w :=
    match s.localPath with
    | some path => Workspace.withLocal root (.disk path around.disk)
    | none => Workspace.new root
  match s.mirror with
  | some address => serve ((Mirror.ofAddress address).host around.web) [] "" around s w
  | none =>
    let warning := if s.localPath.isNone then noMirrorWarning around.errorShades else ""
    serve (Host.ofPackages ∅) [] warning around s w

/-! ### All commands -/

def perform (around : Surroundings) (s : Settings) : Command → Ending
  | .info => info around s
  | .build packages json => build around s packages json
  | .publish packages target table json => publish around s packages target table json
  | .session localPath mirror _ =>
    session around
      { s with
        localPath := localPath.orElse fun _ => s.localPath
        mirror := mirror.orElse fun _ => s.mirror }

/-- Runs the program with the words of a command line. -/
def run (around : Surroundings) (words : List String) : Ending :=
  match CommandLine.read words with
  | .error (.shown text) => ⟨0, fun _ => text ++ "\n", "", around.disk⟩
  | .error .refused => ⟨2, fun _ => "", "error: invalid command line\n", around.disk⟩
  | .error .aborted => aborted around.disk "length of time out of range"
  | .ok invocation =>
    match Settings.ofEnvironment around.environment with
    | .error e => failed around.disk e.message []
    | .ok s => perform around (settingsFor invocation s) invocation.command

end Program

end Playground
