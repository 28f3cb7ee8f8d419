import Playground.Publish.Catalog
import Playground.Publish.Universe
import Playground.Store.Bucket

/-!
# Publishing

Every package of a universe is built and rendered in both variants.  Then the modules are stored
under keys that name their content, the universe record after all of them, and at last the lookup
table is written.  A failure stops the work, so nothing is recorded before it is there.
-/

namespace Playground

/-- Why packages could not be published. -/
inductive PublishError where
  | build (cause : BuildError)
  | render (cause : RenderError)
  | storage (cause : StorageError)
  | tree (cause : TreeError)
  | table (cause : TableError)
  deriving DecidableEq, Repr

def PublishError.message : PublishError → String
  | build cause => cause.message
  | render cause => cause.message
  | storage cause => cause.message
  | tree cause => "filesystem error: " ++ cause.message
  | table cause => cause.message

/-- What was published. -/
structure PublishReport where
  packages : Nat
  /-- The objects that were stored, the record included. -/
  uploaded : Nat
  tablePath : String
  deriving DecidableEq, Repr

/-- The beginning of every key. -/
def storagePrefix : String := "sys"

/-- The key of a module. -/
def storageKey (importPath : String) (digest : Digest) (variant : Variant) : String :=
  storagePrefix ++ "/" ++ importPath ++ "." ++ digest.text ++ variant.keySuffix ++ ".js"

/-- The key of the universe record. -/
def recordKey : String := storagePrefix ++ "/index.json"

def moduleContentType : String := "application/javascript"

def recordContentType : String := "application/json"

namespace Publisher

variable {σ β : Type}

/-- An effect of publishing. -/
inductive Effect where
  | store (key : String) (object : StoredObject)
  | saveTable (path : String) (table : LookupTable)

def perform (bucket : Bucket β) (depot : Depot β) : Effect → Except PublishError Unit × Depot β
  | .store key object =>
    let (result, depot) := bucket.put key object depot
    (result.mapError .storage, depot)
  | .saveTable path table =>
    let (result, disk) := table.save path depot.disk
    (result.mapError .table, { depot with disk })

/-- Performs effects in order, up to the first that fails. -/
def performAll (bucket : Bucket β) : Depot β → List Effect → Except PublishError Unit × Depot β
  | depot, [] => (.ok (), depot)
  | depot, effect :: effects =>
    match perform bucket depot effect with
    | (.error e, depot) => (.error e, depot)
    | (.ok (), depot) => performAll bucket depot effects

def storeArtifact (importPath : String) (a : Artifact) : Effect :=
  .store (storageKey importPath a.digest a.variant) ⟨a.bytes, moduleContentType⟩

def uploads (rendered : RenderedSet) : List Effect :=
  rendered.toList.flatMap fun (path, package) =>
    [storeArtifact path package.optimized, storeArtifact path package.full]

def storeRecord (record : UniverseRecord) : Effect :=
  .store recordKey ⟨record.text.toByteArray, recordContentType⟩

/-- The order in which modules are stored. -/
structure UploadOrder where
  arrange : List Effect → List Effect
  perm : ∀ effects, (arrange effects).Perm effects

/-- Modules are stored in the order of their import paths. -/
def UploadOrder.inOrder : UploadOrder := ⟨id, fun _ => .refl _⟩

/-- All effects of publishing rendered packages, in their order. -/
def effects (order : UploadOrder) (tablePath : String) (rendered : RenderedSet) : List Effect :=
  let record := UniverseRecord.ofRendered rendered
  order.arrange (uploads rendered) ++
    [storeRecord record, .saveTable tablePath (LookupTable.ofRecord record)]

/-- Builds packages one after the other in the same sessions. -/
def buildAll (frontEnd : FrontEnd σ) (schedule : Schedule) (sources : View) (ext : String) :
    VariantSessions → BuildContext σ → List String →
      Except BuildError VariantSessions × BuildContext σ
  | sessions, c, [] => (.ok sessions, c)
  | sessions, c, path :: paths =>
    match sessions.build frontEnd schedule sources ext [path] c with
    | (.error e, _, c) => (.error e, c)
    | (.ok _, sessions, c) => buildAll frontEnd schedule sources ext sessions c paths

/-- Everything of a universe, rendered. -/
def renderUniverse (frontEnd : FrontEnd σ) (schedule : Schedule) (sources : View) (ext : String)
    (c : BuildContext σ) (paths : List String) :
    Except PublishError RenderedSet × BuildContext σ :=
  match buildAll frontEnd schedule sources ext .new c paths with
  | (.error e, c) => (.error (.build e), c)
  | (.ok sessions, c) => ((RenderedSet.render sessions.units).mapError .render, c)

/-- How packages are published. -/
structure Settings where
  ext : String
  tablePath : String
  schedule : Schedule
  order : UploadOrder

/-- Builds, stores and records every package of a universe.  The workers that store are as many as
those that build, and counted again. -/
def publishAll (frontEnd : FrontEnd σ) (bucket : Bucket β) (settings : Settings) (w : Workspace)
    (paths : List String) (c : BuildContext σ) (depot : Depot β) :
    Except PublishError PublishReport × BuildContext σ × Depot β :=
  match renderUniverse frontEnd settings.schedule w.sources settings.ext c paths with
  | (.error e, c) => (.error e, c, depot)
  | (.ok rendered, c) =>
    if settings.schedule.isOverstaffed then (.error (.build (.worker .overstaffed)), c, depot)
    else
      let todo := effects settings.order settings.tablePath rendered
      match performAll bucket depot todo with
      | (.error e, depot) => (.error e, c, depot)
      | (.ok (), depot) => (.ok ⟨rendered.size, todo.length - 1, settings.tablePath⟩, c, depot)

/-- Publishes every package of the library but those that are excluded. -/
def publishRoot (frontEnd : FrontEnd σ) (bucket : Bucket β) (settings : Settings) (w : Workspace)
    (excluded : List String) (c : BuildContext σ) (depot : Depot β) :
    Except PublishError PublishReport × BuildContext σ × Depot β :=
  match Universe.enumerate w.root.view settings.ext excluded with
  | .error e => (.error (.tree e), c, depot)
  | .ok paths => publishAll frontEnd bucket settings w paths c depot

end Publisher

end Playground
