import Playground.Fetch.Resolver
import Playground.Message

/-!
# Sessions

A session serves one client.  It waits for an update, brings in what the submitted program
imports, builds the program in both variants, and answers with the modules that the client does
not hold, followed by an index of all.  Any failure ends it with one error message, but one that
brings down whoever serves the client.

What a session sends is, in this order: notices about fetching, notices about building, the
modules, the index, and a last notice.
-/

namespace Playground

/-- Why a session failed. -/
inductive SessionError where
  | protocol (cause : ProtocolError)
  | fetch (cause : FetchError)
  | build (cause : BuildError)
  | render (cause : RenderError)
  /-- The submitted sources cannot be stored. -/
  | tree (cause : TreeError)
  | cancelled
  /-- The client does not listen. -/
  | disconnected
  deriving DecidableEq, Repr

namespace SessionError

def message : SessionError → String
  | protocol cause => cause.message
  | fetch cause => cause.message
  | build cause => cause.message
  | render cause => cause.message
  | tree cause => "filesystem error: " ++ cause.message
  | cancelled => "session cancelled"
  | disconnected => "client disconnected"

/-- A failed build as the failure of a session. -/
def ofBuild : BuildError → SessionError
  | .cancelled => cancelled
  | e => build e

/-- What the client is told about a failure. -/
def toMessage (e : SessionError) : Message :=
  match e with
  | build (.compile c) => .error c.text (some c.importPath) c.position
  | build (.load (.notFound path)) | build (.load (.noSourceFiles path)) =>
    .error e.message (some path) none
  | fetch cause => .error cause.message cause.importPath? none
  | e => .ofError e.message

/-- Whether a failure brings down whoever serves the client, so that nobody tells the client. -/
def isFatal : SessionError → Bool
  | build (.worker .overstaffed) => true
  | _ => false

/-- Whether what was submitted is at fault. -/
def isUserError : SessionError → Bool
  | build cause => cause.isUserError
  | fetch (.notFound _) | fetch (.policyDenied _ _) => true
  | protocol cause =>
    match cause with
    | .malformed _ | .unexpectedMessage _ | .missingEntryPackage | .missingEntryFile => true
    | .timeout | .closed | .io _ => false
  | _ => false

end SessionError

structure SessionSummary where
  /-- The packages that were built. -/
  packages : Nat
  /-- The modules that were sent. -/
  sent : Nat
  /-- The packages that the client held already. -/
  reused : Nat
  deriving DecidableEq, Repr

/-- What comes from a client before the time for it is over. -/
inductive FirstLine where
  | closed
  | silent
  | line (text : String)
  deriving DecidableEq, Repr

/-- A client, as far as a session notices it. -/
structure Client where
  first : FirstLine
  /-- Whether the client listens. -/
  listens : Bool

/-- How a session is run. -/
structure SessionSettings where
  policy : FetchPolicy
  /-- Whether packages are fetched. -/
  fetches : Bool
  schedule : Schedule

/-- What a session acts upon. -/
structure SessionState (σ η : Type) where
  workspace : Workspace
  /-- The state of the package host. -/
  host : η
  build : BuildContext σ
  /-- The messages that were sent, in order. -/
  messages : List Message

/-- A part of a session. -/
abbrev SessionM (σ η : Type) := ExceptT SessionError (StateM (SessionState σ η))

namespace Session

variable {σ η : Type}

/-- Sends a message.  When nobody listens the session is cancelled. -/
def send (client : Client) (m : Message) : SessionM σ η Unit := do
  if client.listens then modify fun s => { s with messages := s.messages ++ [m] }
  else
    modify fun s => { s with build := { s.build with cancelled := true } }
    throw .disconnected

/-- What went wrong in a part of the work, as the failure of the session. -/
def orFail (fault : ε → SessionError) : Except ε α → SessionM σ η α
  | .ok a => return a
  | .error e => throw (fault e)

/-- Waits for an update. -/
def receive (client : Client) : SessionM σ η Update := do
  if (← get).build.cancelled then throw .cancelled
  match client.first with
  | .closed => throw (.protocol .closed)
  | .silent => throw (.protocol .timeout)
  | .line text =>
    match Message.read text with
    | .error cause => throw (.protocol (.malformed cause))
    | .ok (.update u) => return u
    | .ok m => throw (.protocol (.unexpectedMessage m.kind))

/-- Stores packages in the sources of the session, up to the first that cannot be stored. -/
def addPackages : Workspace → List (String × Named String) → Workspace × Except TreeError Unit
  | w, [] => (w, .ok ())
  | w, (path, files) :: rest =>
    let contents := files.toList.map fun (name, source) => (name, source.toByteArray)
    match w.addPackage path contents with
    | (w, .error e) => (w, .error e)
    | (w, .ok ()) => addPackages w rest

/-- Stores the submitted sources. -/
def submit (u : Update) : SessionM σ η Unit := do
  let s ← get
  let (workspace, result) := addPackages s.workspace u.source.toList
  set { s with workspace }
  orFail .tree result

/-- The notice about a fetch. -/
def fetchNotice : FetchEvent → Message
  | .started path => .downloading (.say path)
  | .finished path => .downloading (.say (path ++ " done"))

/-- Fetches what the entry package needs. -/
def fetchImports (host : Host η) (policy : FetchPolicy) : SessionM σ η Unit := do
  let s ← get
  let resolver : Resolver η := ⟨s.workspace, s.host, [], []⟩
  let (result, r) := resolver.resolve host policy entryPackage
  set { s with
    workspace := r.workspace, host := r.host
    messages := s.messages ++ r.events.map fetchNotice }
  orFail .fetch result

/-- The notices about a build: those of the full variant, so that each package is named once. -/
def buildNotices (announced : List (Variant × String)) : List Message :=
  (announced.filter (·.1 = .full)).map fun (_, path) => .updating (.say (announcement path))

/-- Builds the entry package in both variants. -/
def build (frontEnd : FrontEnd σ) (schedule : Schedule) : SessionM σ η VariantUnits := do
  let s ← get
  let (result, _, context) := VariantSessions.new.build frontEnd schedule s.workspace.sources
    sourceExt [entryPackage] { s.build with announced := [] }
  set { s with
    build := context
    messages := s.messages ++ buildNotices context.announced }
  orFail .ofBuild result

def sendAll (client : Client) : List Message → SessionM σ η Unit
  | [] => return
  | m :: ms => do
    send client m
    sendAll client ms

/-- Fetches, builds and answers. -/
def answer [Bytes.Gzip.Encoder] (frontEnd : FrontEnd σ) (host : Host η)
    (settings : SessionSettings) (client : Client) (u : Update) : SessionM σ η SessionSummary := do
  send client (.downloading .begin)
  submit u
  if settings.fetches then fetchImports host settings.policy
  send client (.downloading .finished)
  send client (.updating .begin)
  let units ← build frontEnd settings.schedule
  let rendered ← orFail .render (RenderedSet.render units)
  let delta := Delta.compute rendered u.cache u.variant entryPackage
  sendAll client (delta.artifacts.map Message.ofArtifact)
  send client (.index delta.index)
  send client (.updating .finished)
  return ⟨delta.index.size, delta.sent, delta.reused⟩

/-- Serves a client, up to the first failure. -/
def serve [Bytes.Gzip.Encoder] (frontEnd : FrontEnd σ) (host : Host η)
    (settings : SessionSettings) (client : Client) : SessionM σ η SessionSummary := do
  let u ← receive client
  discard (orFail .protocol u.entrySource)
  answer frontEnd host settings client u

/-- Tells a client about a failure, if it listens. -/
def tell (client : Client) (e : SessionError) (s : SessionState σ η) : SessionState σ η :=
  if client.listens && !e.isFatal then { s with messages := s.messages ++ [e.toMessage] } else s

/-- Serves a client. -/
def run [Bytes.Gzip.Encoder] (frontEnd : FrontEnd σ) (host : Host η) (settings : SessionSettings)
    (client : Client) (s : SessionState σ η) :
    Except SessionError SessionSummary × SessionState σ η :=
  match (serve frontEnd host settings client).run s with
  | (.ok summary, s) => (.ok summary, s)
  | (.error e, s) => (.error e, tell client e s)

end Session

end Playground
