import Mathlib.Logic.Relation
import Playground.Proofs.Publish.Agreement
import Playground.Proofs.Publish.TableFile

/-!
# Histories of publishing

Universes are published one after the other with the same bucket and the same table.  Any object may
be refused, and the modules of a call that failed may still be stored while the next call goes on.
What is stored and recorded is consistent all the while (`isConsistent_of_reaches`): modules are
stored under the digests of their bytes, and neither the record nor the table names a module that is
not stored.

A step stores one object or saves the table.  Objects are never taken back, so it is enough that
what is recorded is stored before (`Step.isSound`).
-/

namespace Playground.Publisher

open LookupTable

/-! ### Publishing, step by step -/

/-- A bucket that stores an object as a whole or not at all, and touches nothing else. -/
structure IsWhole {β : Type} (bucket : Bucket β) (objects : β → Named StoredObject) : Prop where
  disk : ∀ key object depot, (bucket.put key object depot).2.disk = depot.disk
  stored : ∀ key object depot depot', bucket.put key object depot = (.ok (), depot') →
    objects depot'.bucket = (objects depot.bucket).insert key object
  refused : ∀ key object depot cause depot', bucket.put key object depot = (.error cause, depot') →
    objects depot'.bucket = objects depot.bucket

theorem isWhole_of_put {bucket : Bucket (Named StoredObject)}
    (h : ∀ key object depot,
      bucket.put key object depot =
          (.ok (), { depot with bucket := depot.bucket.insert key object }) ∨
        ∃ cause, bucket.put key object depot = (.error cause, depot)) : IsWhole bucket id where
  disk key object depot := by
    rcases h key object depot with hput | ⟨cause, hput⟩ <;> rw [hput]
  stored key object depot depot' hstored := by
    rcases h key object depot with hput | ⟨cause, hput⟩
    · cases hput.symm.trans hstored
      rfl
    · cases hput.symm.trans hstored
  refused key object depot cause depot' hrefused := by
    rcases h key object depot with hput | ⟨cause', hput⟩
    · cases hput.symm.trans hrefused
    · cases hput.symm.trans hrefused
      rfl

theorem isWhole_memoryBucket (failOn : Option String) : IsWhole (memoryBucket failOn) id := by
  refine isWhole_of_put fun key object depot => ?_
  unfold memoryBucket
  dsimp only
  split
  · exact .inr ⟨_, rfl⟩
  · split
    · exact .inr ⟨_, rfl⟩
    · exact .inl rfl

theorem isWhole_keepAll : IsWhole keepAll id := isWhole_of_put fun _ _ _ => .inl rfl

/-- Publishing as it goes on. -/
structure Work (β : Type) where
  depot : Depot β
  /-- What the call that is under way has yet to do. -/
  todo : List Effect
  /-- The uploads of this call and of those before it.  Uploads run side by side, and when one of
  them fails, others may be under way and still be done. -/
  begun : List Effect

def Work.start {β : Type} (depot : Depot β) : Work β := ⟨depot, [], []⟩

/-- What may happen next. -/
inductive Step {β : Type} (bucket : Bucket β) (tablePath : String) : Work β → Work β → Prop where
  /-- A call has built and rendered its universe. -/
  | begin {σ : Type} (frontEnd : FrontEnd σ) (settings : Settings) (w : Workspace)
      (paths : List String) {c c' : BuildContext σ} {rendered : RenderedSet} {depot : Depot β}
      {begun : List Effect} (hpath : settings.tablePath = tablePath)
      (h : renderUniverse frontEnd settings.schedule w.sources settings.ext c paths =
        (.ok rendered, c')) :
      Step bucket tablePath ⟨depot, [], begun⟩
        ⟨depot, effects settings.order tablePath rendered, uploads rendered ++ begun⟩
  /-- The next effect of the call is performed. -/
  | perform {effect : Effect} {todo begun : List Effect} {depot depot' : Depot β}
      (h : perform bucket depot effect = (.ok (), depot')) :
      Step bucket tablePath ⟨depot, effect :: todo, begun⟩ ⟨depot', todo, begun⟩
  /-- The next effect of the call fails, and with it the call. -/
  | fail {effect : Effect} {todo begun : List Effect} {cause : PublishError}
      {depot depot' : Depot β} (h : perform bucket depot effect = (.error cause, depot')) :
      Step bucket tablePath ⟨depot, effect :: todo, begun⟩ ⟨depot', [], begun⟩
  /-- An upload that runs by itself is done or fails. -/
  | upload {effect : Effect} {todo begun : List Effect} {depot : Depot β} (h : effect ∈ begun) :
      Step bucket tablePath ⟨depot, todo, begun⟩
        ⟨(Publisher.perform bucket depot effect).2, todo, begun⟩

/-- What may have happened. -/
abbrev Reaches {β : Type} (bucket : Bucket β) (tablePath : String) : Work β → Work β → Prop :=
  Relation.ReflTransGen (Step bucket tablePath)

/-- The disks that are seen: the disk as it is, and those on the way of saving the table. -/
inductive Work.Shows {β : Type} (tablePath : String) (work : Work β) : Disk → Prop where
  | now : work.Shows tablePath work.depot.disk
  | saving {table : LookupTable} {todo : List Effect} {disk : Disk}
      (htodo : work.todo = .saveTable tablePath table :: todo)
      (hsaving : Saving table tablePath work.depot.disk disk) : work.Shows tablePath disk

/-- What is recorded is stored. -/
structure IsConsistent (tablePath : String) (objects : Named StoredObject) (disk : Disk) :
    Prop where
  modules : ∀ (path : String) (digest : Digest) (variant : Variant) (object : StoredObject),
    digest.IsHex → objects[storageKey path digest variant]? = some object →
      Digest.ofBytes object.bytes = digest
  record : ∀ object : StoredObject, objects[recordKey]? = some object →
    ∃ record, UniverseRecord.ofBytes? object.bytes = some record ∧
      ∀ (path : String) (entry : UniverseEntry), record[path]? = some entry →
        storageKey path entry.optimized .optimized ∈ objects ∧
          storageKey path entry.full .full ∈ objects
  table : ∀ content, disk.readFile tablePath = .ok content →
    ∃ table, LookupTable.load disk tablePath = .ok table ∧
      ∀ (path : String) (row : TableEntry), table[path]? = some row →
        storageKey path row.min .optimized ∈ objects ∧ storageKey path row.max .full ∈ objects

variable {β σ : Type} {bucket : Bucket β} {contents : β → Named StoredObject}
  {objects objects' : Named StoredObject} {tablePath key : String} {object : StoredObject}
  {depot depot' : Depot β} {work next : Work β} {start : Disk} {rendered : RenderedSet}
  {effect : Effect} {todo begun : List Effect} {result : Except PublishError Unit}

/-! ### Calls are made of steps -/

theorem reaches_performAll (h : performAll bucket depot todo = (result, depot')) :
    Reaches bucket tablePath ⟨depot, todo, begun⟩ ⟨depot', [], begun⟩ := by
  induction todo generalizing depot with
  | nil =>
    cases h
    exact .refl
  | cons effect todo ih =>
    rw [performAll] at h
    split at h
    · rename_i cause depot₁ hperform
      cases h
      exact .single (.fail hperform)
    · rename_i depot₁ hperform
      exact .head (.perform hperform) (ih h)

theorem reaches_publishAll {frontEnd : FrontEnd σ} {settings : Settings} {w : Workspace}
    {paths : List String} {c c' : BuildContext σ} {result : Except PublishError PublishReport}
    (hpath : settings.tablePath = tablePath)
    (h : publishAll frontEnd bucket settings w paths c depot = (result, c', depot')) :
    ∃ begun', Reaches bucket tablePath ⟨depot, [], begun⟩ ⟨depot', [], begun'⟩ := by
  rcases publishAll_cases h with ⟨e, -, -, rfl⟩ | ⟨rendered, result₁, hrender, hperform, -⟩
  · exact ⟨begun, .refl⟩
  · subst hpath
    exact ⟨uploads rendered ++ begun,
      .head (.begin frontEnd settings w paths rfl hrender) (reaches_performAll hperform)⟩

/-! ### What may be stored and saved -/

/-- An object that is stored under the digest of its bytes. -/
def IsModule (key : String) (object : StoredObject) : Prop :=
  ∃ path variant, key = storageKey path (Digest.ofBytes object.bytes) variant

/-- Both modules of every entry of a record are stored. -/
def Covers (objects : Named StoredObject) (record : UniverseRecord) : Prop :=
  ∀ (path : String) (entry : UniverseEntry), record[path]? = some entry →
    storageKey path entry.optimized .optimized ∈ objects ∧
      storageKey path entry.full .full ∈ objects

/-- An effect that leaves a consistent store consistent. -/
def Effect.IsAllowed (tablePath : String) (objects : Named StoredObject) : Effect → Prop
  | .store key object => IsModule key object ∨ key = recordKey ∧
      ∃ record, object.bytes = record.text.toByteArray ∧ Covers objects record
  | .saveTable path table => path = tablePath ∧
      ∃ record, table = .ofRecord record ∧ Covers objects record

/-- The text of the table of a record that is covered. -/
def IsTableText (objects : Named StoredObject) (text : ByteArray) : Prop :=
  ∃ record, text = (LookupTable.ofRecord record).text.toByteArray ∧ Covers objects record

theorem Covers.mono {record : UniverseRecord} (h : Covers objects record)
    (hgrows : ∀ key ∈ objects, key ∈ objects') : Covers objects' record :=
  fun path entry hentry => (h path entry hentry).imp (hgrows _) (hgrows _)

theorem IsTableText.mono {text : ByteArray} (h : IsTableText objects text)
    (hgrows : ∀ key ∈ objects, key ∈ objects') : IsTableText objects' text :=
  h.imp fun _ ⟨htext, hcovers⟩ => ⟨htext, hcovers.mono hgrows⟩

/-- Every object may have been stored, and the table is one that may have been saved. -/
structure IsSound (contents : β → Named StoredObject) (tablePath : String) (start : Disk)
    (depot : Depot β) : Prop where
  store : ∀ (key : String) (object : StoredObject), (contents depot.bucket)[key]? = some object →
    (Effect.store key object).IsAllowed tablePath (contents depot.bucket)
  table : IsKept (IsTableText (contents depot.bucket)) tablePath start depot.disk

theorem of_perform_store (hbucket : IsWhole bucket contents)
    (h : perform bucket depot (.store key object) = (result, depot')) :
    depot'.disk = depot.disk ∧
      (result = .ok () ∧ contents depot'.bucket = (contents depot.bucket).insert key object ∨
        contents depot'.bucket = contents depot.bucket ∧ ∃ cause, result = .error cause) := by
  rw [perform] at h
  have hdisk := hbucket.disk key object depot
  cases hput : bucket.put key object depot with
  | mk stored depot₁ =>
    rw [hput] at h hdisk
    cases h
    refine ⟨hdisk, ?_⟩
    cases stored with
    | ok _ => exact .inl ⟨rfl, hbucket.stored key object depot _ hput⟩
    | error cause => exact .inr ⟨hbucket.refused key object depot cause _ hput, _, rfl⟩

theorem of_perform_saveTable {path : String} {table : LookupTable}
    (h : perform bucket depot (.saveTable path table) = (result, depot')) :
    depot'.bucket = depot.bucket ∧ ∃ saved, table.save path depot.disk = (saved, depot'.disk) ∧
      result = saved.mapError .table := by
  cases h
  exact ⟨rfl, _, rfl, rfl⟩

/-- Objects are never taken back. -/
theorem mem_of_perform (hbucket : IsWhole bucket contents)
    (h : perform bucket depot effect = (result, depot')) (hkey : key ∈ contents depot.bucket) :
    key ∈ contents depot'.bucket := by
  cases effect with
  | store =>
    rcases (of_perform_store hbucket h).2 with ⟨-, hcontents⟩ | ⟨hcontents, -⟩
    · rw [hcontents, Named.mem_insert]
      exact .inr hkey
    · rw [hcontents]
      exact hkey
  | saveTable =>
    rw [(of_perform_saveTable h).1]
    exact hkey

theorem Effect.IsAllowed.mono (h : effect.IsAllowed tablePath objects)
    (hgrows : ∀ key ∈ objects, key ∈ objects') : effect.IsAllowed tablePath objects' := by
  cases effect with
  | store => exact h.imp_right fun ⟨hkey, record, hbytes, hcovers⟩ =>
      ⟨hkey, record, hbytes, hcovers.mono hgrows⟩
  | saveTable => exact h.imp_right fun ⟨record, htable, hcovers⟩ =>
      ⟨record, htable, hcovers.mono hgrows⟩

/-- An effect that is allowed keeps a depot sound, also when it fails. -/
theorem IsSound.perform (h : IsSound contents tablePath start depot)
    (hbucket : IsWhole bucket contents) (hstart : HasNoTable tablePath start)
    (hallowed : effect.IsAllowed tablePath (contents depot.bucket))
    (hperform : perform bucket depot effect = (result, depot')) :
    IsSound contents tablePath start depot' := by
  have hgrows : ∀ key ∈ contents depot.bucket, key ∈ contents depot'.bucket :=
    fun key => mem_of_perform hbucket hperform
  have hkept := h.table.imp fun text htext => htext.mono hgrows
  cases effect with
  | store key object =>
    obtain ⟨hdisk, hstored⟩ := of_perform_store hbucket hperform
    refine ⟨fun key' object' hobject => ?_, hdisk ▸ hkept⟩
    rcases hstored with ⟨-, hcontents⟩ | ⟨hcontents, -⟩
    · rw [hcontents, Named.getElem?_insert] at hobject
      split at hobject
      · rename_i he
        cases hobject
        exact he ▸ hallowed.mono hgrows
      · exact (h.store key' object' hobject).mono hgrows
    · rw [hcontents] at hobject
      exact (h.store key' object' hobject).mono hgrows
  | saveTable path table =>
    obtain ⟨hobjects, saved, hsave, -⟩ := of_perform_saveTable hperform
    obtain ⟨rfl, record, rfl, hcovers⟩ := hallowed
    refine ⟨fun key object hobject => (h.store key object (hobjects ▸ hobject)).mono hgrows, ?_⟩
    have hsaved := hkept.save hstart ⟨record, rfl, hcovers.mono hgrows⟩
    rw [hsave] at hsaved
    exact hsaved

/-! ### What a call has yet to do -/

/-- What is left of the effects of a call, when all before it is stored. -/
inductive IsUnderway (tablePath : String) (objects : Named StoredObject) (todo : List Effect) :
    Prop where
  | idle (htodo : todo = [])
  | uploading {rendered : RenderedSet} {left : List Effect} (hrendered : IsRendered rendered)
      (htodo : todo = left ++
        [storeRecord (.ofRendered rendered), .saveTable tablePath (tableOf rendered)])
      (hleft : ∀ effect ∈ left, effect ∈ uploads rendered)
      (hstored : ∀ effect ∈ uploads rendered, effect ∈ left ∨
        ∀ key, effect.key? = some key → key ∈ objects)
  | saving {rendered : RenderedSet} (htodo : todo = [.saveTable tablePath (tableOf rendered)])
      (hcovers : Covers objects (.ofRendered rendered))

theorem isModule_of_mem_uploads (hrendered : IsRendered rendered) (h : effect ∈ uploads rendered) :
    ∃ key object, effect = .store key object ∧ IsModule key object := by
  obtain ⟨path, package, variant, hpackage, rfl⟩ := (mem_uploads hrendered).1 h
  refine ⟨_, _, rfl, path, variant, ?_⟩
  rw [moduleKey, hrendered.sound path package hpackage variant]

theorem covers_of_uploads (hrendered : IsRendered rendered)
    (hstored : ∀ effect ∈ uploads rendered, ∀ key, effect.key? = some key → key ∈ objects) :
    Covers objects (.ofRendered rendered) := by
  intro path entry hentry
  rw [UniverseRecord.ofRendered, Std.ExtTreeMap.getElem?_map] at hentry
  obtain ⟨package, hpackage, rfl⟩ := Option.map_eq_some_iff.1 hentry
  have hmem : ∀ variant, moduleKey path package variant ∈ objects := fun variant =>
    hstored _ ((mem_uploads hrendered).2 ⟨path, package, variant, hpackage, rfl⟩) _ rfl
  exact ⟨hmem .optimized, hmem .full⟩

theorem IsUnderway.mono (h : IsUnderway tablePath objects todo)
    (hgrows : ∀ key ∈ objects, key ∈ objects') : IsUnderway tablePath objects' todo := by
  cases h with
  | idle htodo => exact .idle htodo
  | uploading hrendered htodo hleft hstored =>
    exact .uploading hrendered htodo hleft fun effect he =>
      (hstored effect he).imp_right fun h key hkey => hgrows key (h key hkey)
  | saving htodo hcovers => exact .saving htodo (hcovers.mono hgrows)

theorem isUnderway_effects (hrendered : IsRendered rendered) (order : UploadOrder) :
    IsUnderway tablePath objects (effects order tablePath rendered) :=
  .uploading hrendered rfl (fun _ he => (order.perm _).mem_iff.1 he)
    fun _ he => .inl ((order.perm _).mem_iff.2 he)

/-- The next effect is allowed, and when it is done, the others are left. -/
theorem IsUnderway.cons (h : IsUnderway tablePath objects (effect :: todo)) :
    effect.IsAllowed tablePath objects ∧ ∀ objects' : Named StoredObject,
      (∀ key ∈ objects, key ∈ objects') → (∀ key, effect.key? = some key → key ∈ objects') →
        IsUnderway tablePath objects' todo := by
  cases h with
  | idle htodo => cases htodo
  | @uploading rendered left hrendered htodo hleft hstored =>
    -- the record is next when no upload is left, and then all of them are stored
    cases left with
    | nil =>
      cases htodo
      have hcovers : Covers objects (.ofRendered rendered) := covers_of_uploads hrendered
        fun effect he => (hstored effect he).resolve_left List.not_mem_nil
      exact ⟨.inr ⟨rfl, _, rfl, hcovers⟩,
        fun objects' hgrows _ => .saving rfl (hcovers.mono hgrows)⟩
    | cons next left =>
      cases htodo
      have hnext := hleft effect List.mem_cons_self
      constructor
      · obtain ⟨key, object, rfl, hmodule⟩ := isModule_of_mem_uploads hrendered hnext
        exact .inl hmodule
      · intro objects' hgrows hkey
        refine .uploading hrendered rfl (fun e he => hleft e (List.mem_cons_of_mem _ he)) ?_
        intro e he
        rcases hstored e he with hmem | hmem
        · rcases List.mem_cons.1 hmem with rfl | hmem
          · exact .inr hkey
          · exact .inl hmem
        · exact .inr fun key hkey => hgrows key (hmem key hkey)
  | @saving rendered htodo hcovers =>
    cases htodo
    exact ⟨⟨rfl, _, rfl, hcovers⟩, fun _ _ _ => .idle rfl⟩

/-! ### Steps -/

/-- The depot is sound, what is left to do may be done, and so may what still runs by itself. -/
structure Work.IsSound (contents : β → Named StoredObject) (tablePath : String) (start : Disk)
    (work : Work β) : Prop where
  depot : Publisher.IsSound contents tablePath start work.depot
  todo : IsUnderway tablePath (contents work.depot.bucket) work.todo
  begun : ∀ effect ∈ work.begun, ∃ key object, effect = .store key object ∧ IsModule key object

theorem isRendered_of_renderUniverse {frontEnd : FrontEnd σ} {schedule : Schedule} {sources : View}
    {ext : String} {paths : List String} {c c' : BuildContext σ}
    (h : renderUniverse frontEnd schedule sources ext c paths = (.ok rendered, c')) :
    IsRendered rendered := by
  unfold renderUniverse at h
  split at h
  · cases h
  · rename_i sessions c₁ hbuilt
    cases hrender : RenderedSet.render sessions.units with
    | error cause =>
      rw [hrender] at h
      cases h
    | ok set =>
      rw [hrender] at h
      cases h
      exact isRendered_of_render hrender

theorem Step.isSound (hbucket : IsWhole bucket contents) (hstart : HasNoTable tablePath start)
    (h : Step bucket tablePath work next) (hsound : work.IsSound contents tablePath start) :
    next.IsSound contents tablePath start := by
  obtain ⟨hdepot, htodo, hbegun⟩ := hsound
  cases h with
  | begin frontEnd settings w paths hpath hrender =>
    have hrendered := isRendered_of_renderUniverse hrender
    refine ⟨hdepot, isUnderway_effects hrendered settings.order, fun effect he => ?_⟩
    rcases List.mem_append.1 he with he | he
    · exact isModule_of_mem_uploads hrendered he
    · exact hbegun effect he
  | @perform effect todo begun depot depot' hperform =>
    obtain ⟨hallowed, hnext⟩ := htodo.cons
    refine ⟨hdepot.perform hbucket hstart hallowed hperform,
      hnext _ (fun key => mem_of_perform hbucket hperform) fun key hkey => ?_, hbegun⟩
    cases effect with
    | saveTable => cases hkey
    | store =>
      cases hkey
      rcases (of_perform_store hbucket hperform).2 with ⟨-, hcontents⟩ | ⟨-, cause, hresult⟩
      · rw [hcontents, Named.mem_insert]
        exact .inl rfl
      · cases hresult
  | fail hperform => exact ⟨hdepot.perform hbucket hstart htodo.cons.1 hperform, .idle rfl, hbegun⟩
  | @upload effect todo begun depot he =>
    obtain ⟨key, object, rfl, hmodule⟩ := hbegun effect he
    have hallowed : (Effect.store key object).IsAllowed tablePath (contents depot.bucket) :=
      .inl hmodule
    cases hperform : Publisher.perform bucket depot (.store key object) with
    | mk result depot' =>
      exact ⟨hdepot.perform hbucket hstart hallowed hperform,
        htodo.mono fun key => mem_of_perform hbucket hperform, hbegun⟩

/-- A step leaves the table's file as it was, unless it saves a table. -/
theorem Step.readFile (hbucket : IsWhole bucket contents) (hstart : HasNoTable tablePath start)
    (h : Step bucket tablePath work next) (hsound : work.IsSound contents tablePath start) :
    (∃ table todo, work.todo = .saveTable tablePath table :: todo ∧
        LookupTable.save table tablePath work.depot.disk = (.ok (), next.depot.disk)) ∨
      ∀ content, next.depot.disk.readFile tablePath = .ok content ↔
        work.depot.disk.readFile tablePath = .ok content := by
  have hstore : ∀ {depot depot' : Depot β} {key object result},
      Publisher.perform bucket depot (.store key object) = (result, depot') →
        ∀ content, depot'.disk.readFile tablePath = .ok content ↔
          depot.disk.readFile tablePath = .ok content := by
    intro depot depot' key object result hperform content
    rw [(of_perform_store hbucket hperform).1]
  cases h with
  | begin => exact .inr fun _ => .rfl
  | @perform effect todo begun depot depot' hperform =>
    cases effect with
    | store => exact .inr (hstore hperform)
    | saveTable path table =>
      obtain ⟨rfl, -⟩ := hsound.todo.cons.1
      obtain ⟨-, saved, hsave, hresult⟩ := of_perform_saveTable hperform
      cases saved with
      | error => cases hresult
      | ok _ => exact .inl ⟨table, todo, rfl, hsave⟩
  | @fail effect todo begun cause depot depot' hperform =>
    cases effect with
    | store => exact .inr (hstore hperform)
    | saveTable path table =>
      obtain ⟨rfl, -⟩ := hsound.todo.cons.1
      obtain ⟨-, saved, hsave, hresult⟩ := of_perform_saveTable hperform
      cases saved with
      | ok => cases hresult
      | error cause =>
        exact .inr fun content => readFile_of_save_eq_error hsound.depot.table hstart hsave
  | @upload effect todo begun depot he =>
    obtain ⟨key, object, rfl, -⟩ := hsound.begun effect he
    exact .inr (hstore rfl)

theorem isSound_of_reaches {depot : Depot β} (hbucket : IsWhole bucket contents)
    (hempty : contents depot.bucket = ∅) (htable : HasNoTable tablePath depot.disk)
    (h : Reaches bucket tablePath (.start depot) work) :
    work.IsSound contents tablePath depot.disk := by
  induction h with
  | refl =>
    refine ⟨⟨fun key object hobject => ?_, .inl (.refl _)⟩, .idle rfl,
      fun _ he => absurd he List.not_mem_nil⟩
    have hnone : (contents depot.bucket)[key]? = none := by
      rw [hempty]
      exact Std.ExtTreeMap.getElem?_empty
    exact absurd (hnone.symm.trans hobject) nofun
  | tail _ hstep ih => exact hstep.isSound hbucket htable ih

/-! ### What is sound is consistent -/

theorem IsSound.isConsistent {disk : Disk} (h : IsSound contents tablePath start depot)
    (htable : ∀ content, disk.readFile tablePath = .ok content →
      IsTableText (contents depot.bucket) content) :
    IsConsistent tablePath (contents depot.bucket) disk where
  modules path digest variant object hhex hobject := by
    rcases h.store _ _ hobject with ⟨path', variant', hkey⟩ | ⟨hkey, -⟩
    · exact (storageKey_inj hhex (Digest.isHex_ofBytes _) hkey).2.1.symm
    · exact absurd hkey storageKey_ne_recordKey
  record object hobject := by
    rcases h.store _ _ hobject with ⟨path, variant, hkey⟩ | ⟨-, record, hbytes, hcovers⟩
    · exact absurd hkey.symm storageKey_ne_recordKey
    · refine ⟨record, ?_, hcovers⟩
      rw [hbytes, UniverseRecord.ofBytes?_text]
  table content hread := by
    obtain ⟨record, rfl, hcovers⟩ := htable content hread
    refine ⟨_, load_of_readFile hread, fun path row hrow => ?_⟩
    rw [ofRecord, Std.ExtTreeMap.getElem?_map] at hrow
    obtain ⟨entry, hentry, rfl⟩ := Option.map_eq_some_iff.1 hrow
    exact hcovers path entry hentry

/-- Whatever disk is seen, what is recorded is stored. -/
theorem Work.IsSound.isConsistent {disk : Disk} (hstart : HasNoTable tablePath start)
    (h : work.IsSound contents tablePath start) (hshown : work.Shows tablePath disk) :
    IsConsistent tablePath (contents work.depot.bucket) disk := by
  refine h.depot.isConsistent fun content hread => ?_
  cases hshown with
  | now => exact h.depot.table.of_readFile hstart hread
  | saving htodo hsaving =>
    have hunderway := h.todo
    rw [htodo] at hunderway
    obtain ⟨-, record, rfl, hcovers⟩ := hunderway.cons.1
    exact h.depot.table.of_saving hstart ⟨record, rfl, hcovers⟩ hsaving hread

/-! ### Calls that fail -/

theorem disk_performAll (hbucket : IsWhole bucket contents)
    (hstores : ∀ effect ∈ todo, ∃ key object, effect = .store key object)
    (h : performAll bucket depot todo = (result, depot')) : depot'.disk = depot.disk := by
  induction todo generalizing depot with
  | nil =>
    cases h
    rfl
  | cons effect todo ih =>
    obtain ⟨key, object, rfl⟩ := hstores effect List.mem_cons_self
    rw [performAll] at h
    split at h
    · rename_i cause depot₁ hperform
      cases h
      exact (of_perform_store hbucket hperform).1
    · rename_i depot₁ hperform
      rw [ih (fun effect he => hstores effect (List.mem_cons_of_mem _ he)) h]
      exact (of_perform_store hbucket hperform).1

/-- A call that fails leaves the table's file as it was. -/
theorem readFile_publishAll {frontEnd : FrontEnd σ} {settings : Settings} {w : Workspace}
    {paths : List String} {c c' : BuildContext σ} {cause : PublishError} {content : ByteArray}
    (hbucket : IsWhole bucket contents) (hstart : HasNoTable settings.tablePath start)
    (hsound : IsSound contents settings.tablePath start depot)
    (h : publishAll frontEnd bucket settings w paths c depot = (.error cause, c', depot')) :
    depot'.disk.readFile settings.tablePath = .ok content ↔
      depot.disk.readFile settings.tablePath = .ok content := by
  rcases publishAll_cases h with ⟨e, -, -, rfl⟩ | ⟨rendered, result, hrender, hperform, hresult⟩
  · exact .rfl
  · have hrendered := isRendered_of_renderUniverse hrender
    rw [effects_eq, performAll_append] at hperform
    split at hperform
    · rename_i e depot₁ hstoring
      cases hperform
      rw [disk_performAll hbucket (fun _ => store_of_mem_storing hrendered _) hstoring]
    · rename_i depot₁ hstoring
      have hdisk := disk_performAll hbucket (fun _ => store_of_mem_storing hrendered _) hstoring
      rw [performAll] at hperform
      split at hperform
      · rename_i e depot₂ hsaving
        cases hperform
        obtain ⟨-, saved, hsave, hsaved⟩ := of_perform_saveTable hsaving
        cases saved with
        | ok => cases hsaved
        | error e =>
          rw [hdisk] at hsave
          exact readFile_of_save_eq_error hsound.table hstart hsave
      · cases hperform
        cases hresult

/-! ### Histories -/

/-- Whatever is published with a bucket that is empty at first and a table that is not there, what
is recorded is stored at every moment, whichever objects are refused and in whichever order modules
are stored.  The table's file changes only when a table is saved.  What a call leaves is reached in
this way, and if the call fails, it leaves the file as it was. -/
theorem isConsistent_of_reaches {depot : Depot β} (hbucket : IsWhole bucket contents)
    (hempty : contents depot.bucket = ∅) (htable : HasNoTable tablePath depot.disk)
    (hreaches : Reaches bucket tablePath (.start depot) work) :
    (∀ disk, work.Shows tablePath disk →
      IsConsistent tablePath (contents work.depot.bucket) disk) ∧
    (∀ next, Step bucket tablePath work next →
      (∃ table todo, work.todo = .saveTable tablePath table :: todo ∧
          LookupTable.save table tablePath work.depot.disk = (.ok (), next.depot.disk)) ∨
        ∀ content, next.depot.disk.readFile tablePath = .ok content ↔
          work.depot.disk.readFile tablePath = .ok content) ∧
    ∀ {σ : Type} (frontEnd : FrontEnd σ) (settings : Settings) (w : Workspace) (paths : List String)
      (c c' : BuildContext σ) (depot' : Depot β) (result : Except PublishError PublishReport),
      settings.tablePath = tablePath → work.todo = [] →
      publishAll frontEnd bucket settings w paths c work.depot = (result, c', depot') →
        (∃ begun, Reaches bucket tablePath (.start depot) ⟨depot', [], begun⟩) ∧
        ∀ cause, result = .error cause → ∀ content,
          depot'.disk.readFile tablePath = .ok content ↔
            work.depot.disk.readFile tablePath = .ok content := by
  have hsound := isSound_of_reaches hbucket hempty htable hreaches
  refine ⟨fun disk => hsound.isConsistent htable, fun next hstep =>
    hstep.readFile hbucket htable hsound, ?_⟩
  rintro σ frontEnd settings w paths c c' depot' result rfl htodo h
  constructor
  · obtain ⟨depot₁, todo, begun⟩ := work
    obtain rfl : todo = [] := htodo
    obtain ⟨begun', hcall⟩ := reaches_publishAll rfl h
    exact ⟨begun', hreaches.trans hcall⟩
  · rintro cause rfl content
    exact readFile_publishAll hbucket htable hsound.depot h

/-- Two packages are published with an empty bucket and on an empty disk, and what is then recorded
is stored. -/
theorem exists_isConsistent_overTwoPackages :
    let depot : Depot (Named StoredObject) := ⟨∅, ⟨∅, []⟩⟩
    ∃ report c' depot', publishAll Bundle.frontEnd keepAll tableSettings overTwoPackages ["a", "b"]
        ⟨∅, false, []⟩ depot = (.ok report, c', depot') ∧
      IsConsistent tableSettings.tablePath depot'.bucket depot'.disk := by
  intro depot
  have hfree : ∀ name, depot.disk.node? (depot.disk.workingDir ++ [name]) = none := fun name =>
    Std.ExtTreeMap.getElem?_empty
  have htable : HasNoTable tableSettings.tablePath depot.disk :=
    hasNoTable_of_isName (by decide) (by decide) .root (hfree _) fun target => by simp [hfree]
  obtain ⟨report, c', depot', h⟩ : ∃ report c' depot',
      publishAll Bundle.frontEnd keepAll tableSettings overTwoPackages ["a", "b"] ⟨∅, false, []⟩
        depot = (.ok report, c', depot') :=
    exists_publishAll_eq_ok rfl rfl rfl buildable_overTwoPackages storesAll_keepAll
      exists_save_table
  obtain ⟨-, -, hcall⟩ := isConsistent_of_reaches isWhole_keepAll rfl htable .refl
  obtain ⟨⟨begun, hreaches⟩, -⟩ := hcall _ _ _ _ _ _ _ _ rfl rfl h
  obtain ⟨hconsistent, -⟩ := isConsistent_of_reaches isWhole_keepAll rfl htable hreaches
  exact ⟨report, c', depot', h, hconsistent _ .now⟩

end Playground.Publisher
