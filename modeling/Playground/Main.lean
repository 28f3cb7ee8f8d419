import Playground.Program.Run

/-!
# The program on the operating system

Shows the program the part of the operating system that it needs, runs it, and carries out what it
leaves behind.  There is no connection to the network.
-/

namespace Playground.Outside

/-- The variables that are set, of those that matter. -/
def environment : IO Environment := do
  let mut env : Environment := ∅
  for name in Environment.names ++ Environment.colorNames do
    if let some value ← IO.getEnv name then env := env.insert name value
  return env

/-- The number of processors, as the system lists them. -/
def processors : IO Nat := do
  try
    let listed ← IO.FS.lines "/proc/cpuinfo"
    return max 1 (listed.filter (·.startsWith "processor")).size
  catch _ => return 1

/-! ### Files -/

/-- The names on the way to a written path, without those that have no meaning. -/
def placeOf (path : String) : Path :=
  (Disk.names path).foldl (fun place name =>
    if name = "" || name = "." then place
    else if name = ".." then place.dropLast
    else place ++ [name]) []

/-- The absolute path of a place. -/
def absolute (place : Path) : String := "/" ++ place.text

/-- Shows one place of the file system.  The result is where it leads when it is a link. -/
def showPlace (d : Disk) (place : Path) : IO (Disk × Option Path) := do
  let path := (← IO.currentDir) / absolute place
  match ← path.symlinkMetadata.toBaseIO with
  | .error _ => return (d, none)
  | .ok found =>
    match found.type with
    | .dir => return (d.put place .dir, none)
    | .file => return (d.put place (.file (← IO.FS.readBinFile path)), none)
    | .symlink =>
      match ← (IO.FS.realPath path).toBaseIO with
      | .error _ => return (d.put place (.link ""), none)
      | .ok target =>
        return (d.put place (.link target.toString), some (placeOf target.toString))
    | .other => return (d, none)

/-- Shows a place, those on the way to it and all below it. -/
partial def showBelow (shown : IO.Ref (List Path)) (d : Disk) (place : Path) : IO Disk := do
  if (← shown.get).contains place then return d
  shown.modify (place :: ·)
  let mut d := d
  for above in place.onTheWay.dropLast do
    let (next, target) ← showPlace d above
    d := next
    if let some target := target then d ← showBelow shown d target
  let (next, target) ← showPlace d place
  d := next
  if let some target := target then return ← showBelow shown d target
  if let some .dir := d.node? place then
    for entry in ← ((← IO.currentDir) / absolute place).readDir do
      d ← showBelow shown d (place ++ [entry.fileName])
  return d

/-- Shows what lies at and below some written paths. -/
def showAll (paths : List String) : IO Disk := do
  let current := (← IO.currentDir).toString
  let shown ← IO.mkRef []
  let mut d : Disk := ⟨∅, placeOf current⟩
  for path in current :: paths do
    let place := placeOf (DiskPath.join current path)
    if path = current then
      for above in place.onTheWay do d := (← showPlace d above).1
    else d ← showBelow shown d place
  return d

/-- Makes the file system what the program leaves. -/
def carryOut (before after : Disk) : IO Unit := do
  for (place, node) in after.nodes.toList do
    match node, before.nodes[place]? with
    | .dir, none => IO.FS.createDirAll (absolute place)
    | .file content, some (.file old) =>
      if content ≠ old then IO.FS.writeBinFile (absolute place) content
    | .file content, _ => IO.FS.writeBinFile (absolute place) content
    | _, _ => pure ()
  for place in before.nodes.keys do
    if (after.nodes[place]?).isNone then IO.FS.removeFile (absolute place)

/-! ### Clients -/

/-- Reads lines up to the first that holds a message.  Input that is not text counts as its end. -/
partial def receive (input : IO.FS.Stream) (received : IO.Ref Inbound) : IO Unit := do
  let line ← try input.getLine catch _ => pure ""
  if line.isEmpty then received.modify fun inbound => { inbound with ends := true }
  else
    received.modify fun inbound => { inbound with bytes := inbound.bytes ++ line.toUTF8 }
    if (← received.get).first = .silent then receive input received

/-- Waits until a client says something, hangs up or has had its time. -/
partial def awaitLine (received : IO.Ref Inbound) (deadline : Nat) : IO Unit := do
  if (← received.get).first = .silent && (← IO.monoNanosNow) < deadline then
    IO.sleep 2
    awaitLine received deadline

/-- What comes from a client in its time.  A client that hangs up later is not noticed. -/
def inbound (patience : Nat) : IO Inbound := do
  let received ← IO.mkRef (⟨ByteArray.empty, false⟩ : Inbound)
  discard <| IO.asTask (receive (← IO.getStdin) received) .dedicated
  awaitLine received ((← IO.monoNanosNow) + patience)
  received.get

end Playground.Outside

open Playground in
/-- Runs the program. -/
def main (words : List String) : IO UInt32 := do
  let start ← IO.monoNanosNow
  let environment ← Outside.environment
  let needs := Program.needs environment words
  let disk ← Outside.showAll needs.places
  let inbound ← needs.patience.elim (pure ⟨ByteArray.empty, true⟩) Outside.inbound
  let ending := Program.run
    { environment, disk, inbound, web := .down, processMark := toString start,
      processors := ← Outside.processors, outputIsTerminal := ← (← IO.getStdout).isTty,
      errorsAreTerminal := ← (← IO.getStderr).isTty } words
  Outside.carryOut disk ending.disk
  let elapsed := (← IO.monoNanosNow) - start
  IO.print (ending.output elapsed)
  IO.eprint ending.errors
  (← IO.getStdout).flush
  return UInt32.ofNat ending.exitCode
