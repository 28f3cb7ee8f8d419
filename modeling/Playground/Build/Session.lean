import Playground.Build.Discover
import Playground.Build.Error
import Playground.Graph

/-!
# Build sessions

A `BuildSession` keeps the units of one variant.  A build adds the units of everything that its
roots need and that the session does not hold yet, one level of the import graph at a time, and
answers with the units that the roots need.  A build that fails adds nothing.

How a build is run is fixed by a `Schedule`: how many packages may be compiled at a time, the order
in which those of a level are compiled, and whether the build is interrupted from outside.  Effects
that outlive a failure are in a `BuildContext`: the state of the front end, the announcements and
the cancellation.
-/

namespace Playground

/-- How a build is run.  Its sources and roots do not decide this. -/
structure Schedule where
  /-- The number of packages that may be compiled at a time.  One may be in any case. -/
  parallelism : Nat
  /-- The order in which the packages of a level are compiled. -/
  arrange : List CompileRequest → List CompileRequest
  perm : ∀ requests, (arrange requests).Perm requests
  /-- When two passes run side by side, the one to go on when so many steps are left. -/
  turn : Nat → Variant
  /-- Whether the session is cancelled from outside once the packages have been read. -/
  interrupted : Bool

namespace Schedule

/-- Packages are compiled one at a time in the order of their import paths, the passes take turns,
and nothing interrupts. -/
def inOrder : Schedule where
  parallelism := 1
  arrange := id
  perm := fun _ => .refl _
  turn := fun left => if left % 2 = 0 then .optimized else .full
  interrupted := false

/-- The same order, interrupted from outside. -/
def inOrderInterrupted : Schedule := { inOrder with interrupted := true }

/-- Whether more workers are asked for than can be counted. -/
def isOverstaffed (schedule : Schedule) : Bool := workerLimit ≤ schedule.parallelism

theorem isOverstaffed_eq_false {schedule : Schedule} :
    schedule.isOverstaffed = false ↔ schedule.parallelism < workerLimit := by
  rw [isOverstaffed, decide_eq_false_iff_not, Nat.not_le]

end Schedule

/-- What builds act upon besides their session. -/
structure BuildContext (σ : Type) where
  /-- The state of the front end. -/
  state : σ
  /-- Whether the session was cancelled.  It stays so. -/
  cancelled : Bool
  /-- The packages that were announced and their variants, in order. -/
  announced : List (Variant × String)

/-- The announcement of a package. -/
def announcement (importPath : String) : String := "compiling " ++ importPath

/-- A part of a build. -/
abbrev BuildM (σ : Type) := ExceptT BuildError (StateM (BuildContext σ))

/-- The units of one variant. -/
structure BuildSession where
  variant : Variant
  units : UnitSet

def UnitSet.dependencies (units : UnitSet) : List (String × List String) :=
  units.toList.map fun (path, unit) => (path, unit.dependencies)

/-- A build under way. -/
structure Pass where
  session : BuildSession
  roots : List String
  /-- The packages that the session did not hold. -/
  packages : PackageSet
  /-- The levels that are not compiled yet. -/
  waves : List (List String)
  /-- The units of the session and those that were compiled. -/
  built : UnitSet
  /-- The units that the roots need, when the build has come to its end. -/
  result : Option UnitSet

namespace BuildSession

def new (variant : Variant) : BuildSession := ⟨variant, ∅⟩

end BuildSession

variable {σ : Type}

/-- Stops a build that was cancelled. -/
def checkCancelled : BuildM σ Unit := do
  if (← get).cancelled then throw .cancelled

/-- Breaks down when the workers cannot be counted. -/
def countWorkers (schedule : Schedule) : BuildM σ Unit := do
  if schedule.isOverstaffed then throw (.worker .overstaffed)

namespace Pass

/-- The unit of a package that `importPath` imports. -/
def dependency (built : UnitSet) (importPath dependency : String) :
    Except BuildError CompiledUnit :=
  match built[dependency]? with
  | some unit => .ok unit
  | none => .error (.missingDependency importPath dependency)

/-- What the front end is to be given for a package. -/
def request (p : Pass) (importPath : String) : Except BuildError CompileRequest := do
  match p.packages[importPath]? with
  | none => .error (.load (.notFound importPath))
  | some package =>
    let dependencies ← package.imports.mapM (dependency p.built importPath)
    return ⟨package, dependencies, p.session.variant⟩

/-- Announces the packages of a level, up to the first whose request cannot be made. -/
def requests (p : Pass) : List String → BuildM σ (List CompileRequest)
  | [] => return []
  | importPath :: wave => do
    let request ← (p.request importPath : Except BuildError CompileRequest)
    modify fun c => { c with announced := c.announced ++ [(p.session.variant, importPath)] }
    return request :: (← requests p wave)

/-- Calls the front end. -/
def call (frontEnd : FrontEnd σ) (request : CompileRequest) : BuildM σ Outcome := do
  let c ← get
  let (reply, state) := frontEnd.compile request c.state
  set { c with state, cancelled := c.cancelled || reply.cancels }
  return reply.outcome

/-- Compiles packages one after the other.  A cancellation is noticed before each of them, before
the result of each is taken, and after the last. -/
def compileAll (frontEnd : FrontEnd σ) : List CompileRequest → BuildM σ (List CompiledUnit)
  | [] => do
    checkCancelled
    return []
  | request :: requests => do
    checkCancelled
    let outcome ← call frontEnd request
    checkCancelled
    match outcome with
    | .built unit => return unit :: (← compileAll frontEnd requests)
    | .rejected e => throw (.compile e)
    | .panicked cause => throw (.worker cause)

/-- The units with some more, each under the import path that it carries. -/
def addUnits (built : UnitSet) (units : List CompiledUnit) : UnitSet :=
  units.foldl (fun built unit => built.insert unit.importPath unit) built

/-- The units that the roots need, by the dependencies that the units name. -/
def closure (built : UnitSet) (roots : List String) : Except BuildError UnitSet :=
  let paths := (ImportGraph.ofUnits built.dependencies).closure roots
  paths.foldlM (fun result path =>
    match built[path]? with
    | some unit => .ok (result.insert path unit)
    | none => .error (.load (.notFound path))) ∅

/-- The beginning of a build: the packages are read and put into levels, and the workers are
counted. -/
def start (schedule : Schedule) (sources : View) (ext : String) (roots : List String)
    (session : BuildSession) : BuildM σ Pass := do
  checkCancelled
  let known (path : String) : Bool := session.units.contains path
  match PackageSet.discover sources ext known roots with
  | .error e => throw (.load e)
  | .ok packages =>
    match (ImportGraph.ofPackages? packages.imports).bind ImportGraph.waves with
    | none => throw .cycle
    | some waves =>
      modify fun c => { c with cancelled := c.cancelled || schedule.interrupted }
      countWorkers schedule
      return ⟨session, roots, packages, waves, session.units, none⟩

/-- The steps that are left to a build: its levels and its end. -/
def stepsLeft (p : Pass) : Nat := if p.result.isSome then 0 else p.waves.length + 1

/-- The next step of a build: a level, or its end, when the session takes the new units. -/
def step (frontEnd : FrontEnd σ) (schedule : Schedule) (p : Pass) : BuildM σ Pass := do
  match p.waves with
  | wave :: waves =>
    let requests ← p.requests wave
    let units ← compileAll frontEnd (schedule.arrange requests)
    return { p with waves, built := addUnits p.built units }
  | [] =>
    let result ← (closure p.built p.roots : Except BuildError UnitSet)
    return { p with session := { p.session with units := p.built }, result := some result }

/-- So many steps of a build. -/
def steps (frontEnd : FrontEnd σ) (schedule : Schedule) : Nat → Pass → BuildM σ Pass
  | 0, p => return p
  | n + 1, p => do steps frontEnd schedule n (← p.step frontEnd schedule)

/-- The units that the roots need, at the end of a build. -/
def units (p : Pass) : UnitSet := p.result.getD ∅

end Pass

namespace BuildSession

/-- Builds what the roots need, and answers with the units of exactly that. -/
def build (frontEnd : FrontEnd σ) (schedule : Schedule) (sources : View) (ext : String)
    (roots : List String) (s : BuildSession) (c : BuildContext σ) :
    Except BuildError UnitSet × BuildSession × BuildContext σ :=
  let run : BuildM σ Pass := do
    let p ← Pass.start schedule sources ext roots s
    Pass.steps frontEnd schedule p.stepsLeft p
  match run.run c with
  | (.ok p, c) => (.ok p.units, p.session, c)
  | (.error e, c) => (.error e, s, c)

end BuildSession

end Playground
