import Mathlib.Data.List.Nodup
import Playground.Proofs.Publish.Keys
import Playground.Proofs.Rendered

/-!
# The effects of publishing

The objects that publishing stores are the modules of both variants and the universe record, under
keys that are all different, and the table is saved after all of them.
-/

namespace Playground.Publisher

variable {rendered : RenderedSet} {path : String} {package : RenderedPackage}
  {order : UploadOrder} {tablePath : String}

/-- The key that an effect stores an object under, if it stores one. -/
def Effect.key? : Effect → Option String
  | .store key _ => some key
  | .saveTable _ _ => none

/-! ### Modules -/

def moduleKey (path : String) (package : RenderedPackage) (variant : Variant) : String :=
  storageKey path (package.get variant).digest variant

/-- The keys of both modules of a package. -/
def moduleKeys (path : String) (package : RenderedPackage) : List String :=
  [moduleKey path package .optimized, moduleKey path package .full]

theorem mem_moduleKeys (path : String) (package : RenderedPackage) (key : String) :
    key ∈ moduleKeys path package ↔ key = storageKey path package.optimized.digest .optimized ∨
      key = storageKey path package.full.digest .full := by
  rw [moduleKeys, List.mem_cons, List.mem_singleton]
  rfl

theorem exists_moduleKey_eq {key : String} (h : key ∈ moduleKeys path package) :
    ∃ variant, key = moduleKey path package variant := by
  rcases (mem_moduleKeys path package key).1 h with rfl | rfl
  · exact ⟨.optimized, rfl⟩
  · exact ⟨.full, rfl⟩

/-- Every module is of its variant and carries the digest of its bytes, as rendering leaves it. -/
structure IsRendered (rendered : RenderedSet) : Prop where
  sound : rendered.IsSound
  variant : ∀ (path : String) (package : RenderedPackage), rendered[path]? = some package →
    ∀ variant, (package.get variant).variant = variant

theorem isRendered_of_render {units : VariantUnits} (h : RenderedSet.render units = .ok rendered) :
    IsRendered rendered where
  sound := RenderedSet.isSound_of_render h
  variant _ _ hp := RenderedSet.variant_of_render h hp

/-- What uploading does for each package: its two modules are stored under their keys. -/
theorem mem_uploads (h : IsRendered rendered) {e : Effect} :
    e ∈ uploads rendered ↔ ∃ (path : String) (package : RenderedPackage) (variant : Variant),
      rendered[path]? = some package ∧ e = .store (moduleKey path package variant)
        ⟨(package.get variant).bytes, moduleContentType⟩ := by
  have hstore : ∀ {path : String} {package : RenderedPackage},
      rendered[path]? = some package → ∀ variant,
      storeArtifact path (package.get variant) = .store (moduleKey path package variant)
        ⟨(package.get variant).bytes, moduleContentType⟩ := by
    intro path package hp variant
    rw [storeArtifact, moduleKey, h.variant path package hp variant]
  simp only [uploads, List.mem_flatMap, Prod.exists]
  constructor
  · rintro ⟨path, package, hmem, he⟩
    have hp := Std.ExtTreeMap.mem_toList_iff_getElem?_eq_some.1 hmem
    rcases List.mem_cons.1 he with rfl | he
    · exact ⟨path, package, .optimized, hp, hstore hp .optimized⟩
    · cases List.mem_singleton.1 he
      exact ⟨path, package, .full, hp, hstore hp .full⟩
  · rintro ⟨path, package, variant, hp, rfl⟩
    refine ⟨path, package, Std.ExtTreeMap.mem_toList_iff_getElem?_eq_some.2 hp, ?_⟩
    rw [← hstore hp variant]
    cases variant
    · exact List.mem_cons_self
    · exact List.mem_cons_of_mem _ List.mem_cons_self

theorem keys_uploads (h : IsRendered rendered) :
    (uploads rendered).filterMap Effect.key? =
      rendered.toList.flatMap fun (path, package) => moduleKeys path package := by
  rw [uploads, List.filterMap_flatMap]
  refine List.flatMap_congr fun entry hmem => ?_
  obtain ⟨path, package⟩ := entry
  have hp := Std.ExtTreeMap.mem_toList_iff_getElem?_eq_some.1 hmem
  have hoptimized := h.variant path package hp .optimized
  have hfull := h.variant path package hp .full
  simp only [PerVariant.get] at hoptimized hfull
  simp [storeArtifact, Effect.key?, moduleKeys, moduleKey, PerVariant.get, hoptimized, hfull]

theorem nodup_moduleKeys (h : IsRendered rendered) :
    (rendered.toList.flatMap fun (path, package) => moduleKeys path package).Nodup := by
  have hhex : ∀ {path : String} {package : RenderedPackage}, (path, package) ∈ rendered.toList →
      ∀ variant : Variant, (package.get variant).digest.IsHex := by
    intro path package hmem variant
    rw [h.sound path package (Std.ExtTreeMap.mem_toList_iff_getElem?_eq_some.1 hmem) variant]
    exact Digest.isHex_ofBytes _
  rw [List.nodup_flatMap]
  constructor
  · rintro ⟨path, package⟩ hmem
    refine List.nodup_cons.2 ⟨fun hkey => ?_, List.nodup_singleton _⟩
    have hsame := storageKey_inj (hhex hmem .optimized) (hhex hmem .full)
      (List.mem_singleton.1 hkey)
    cases hsame.2.2
  · have hpaths : rendered.toList.Pairwise fun a b => a.1 ≠ b.1 :=
      List.pairwise_map.1 (Named.nodup_map_fst_toList rendered)
    refine hpaths.imp_of_mem ?_
    rintro ⟨path, package⟩ ⟨path', package'⟩ hmem hmem' hne key hkey hkey'
    obtain ⟨variant, rfl⟩ := exists_moduleKey_eq hkey
    obtain ⟨variant', hsame⟩ := exists_moduleKey_eq hkey'
    exact hne (storageKey_inj (hhex hmem variant) (hhex hmem' variant') hsame).1

/-! ### All objects -/

/-- The effects that store objects: the modules in some order, then the record. -/
def storing (order : UploadOrder) (rendered : RenderedSet) : List Effect :=
  order.arrange (uploads rendered) ++ [storeRecord (.ofRendered rendered)]

theorem store_of_mem_storing (h : IsRendered rendered) (order : UploadOrder) {e : Effect}
    (he : e ∈ storing order rendered) : ∃ key object, e = .store key object := by
  rcases List.mem_append.1 he with he | he
  · obtain ⟨path, package, variant, -, rfl⟩ := (mem_uploads h).1 ((order.perm _).mem_iff.1 he)
    exact ⟨_, _, rfl⟩
  · cases List.mem_singleton.1 he
    exact ⟨_, _, rfl⟩

def tableOf (rendered : RenderedSet) : LookupTable := .ofRecord (.ofRendered rendered)

theorem getElem?_tableOf {p : String} : (tableOf rendered)[p]? = rendered[p]?.map fun package =>
    ⟨package.optimized.digest, package.full.digest⟩ := by
  rw [tableOf, LookupTable.ofRecord, UniverseRecord.ofRendered, Std.ExtTreeMap.getElem?_map,
    Std.ExtTreeMap.getElem?_map, Option.map_map]
  rfl

theorem mem_tableOf {p : String} : p ∈ tableOf rendered ↔ p ∈ rendered := by
  rw [Named.mem_iff, Named.mem_iff]
  simp only [getElem?_tableOf, Option.map_eq_some_iff]
  exact ⟨fun ⟨_, package, h, _⟩ => ⟨package, h⟩, fun ⟨package, h⟩ => ⟨_, package, h, rfl⟩⟩

theorem size_tableOf : (tableOf rendered).size = rendered.size := by
  rw [tableOf, LookupTable.ofRecord, UniverseRecord.ofRendered, Std.ExtTreeMap.size_map,
    Std.ExtTreeMap.size_map]

/-- Publishing stores all objects, and then saves the table. -/
theorem effects_eq : effects order tablePath rendered =
    storing order rendered ++ [.saveTable tablePath (tableOf rendered)] := by
  rw [effects, storing, List.append_assoc]
  rfl

/-- The effects that store some objects. -/
def storeAll (puts : List (String × StoredObject)) : List Effect :=
  puts.map fun (key, object) => .store key object

theorem keys_storeAll (puts : List (String × StoredObject)) :
    (storeAll puts).filterMap Effect.key? = puts.map Prod.fst := by
  induction puts with
  | nil => rfl
  | cons put puts ih => exact congrArg (put.1 :: ·) ih

theorem exists_eq_storeAll {stores : List Effect}
    (h : ∀ e ∈ stores, ∃ key object, e = .store key object) : ∃ puts, stores = storeAll puts := by
  induction stores with
  | nil => exact ⟨[], rfl⟩
  | cons e stores ih =>
    obtain ⟨key, object, rfl⟩ := h e List.mem_cons_self
    obtain ⟨puts, rfl⟩ := ih fun e he => h e (List.mem_cons_of_mem _ he)
    exact ⟨(key, object) :: puts, rfl⟩

/-- The keys that a table stands for: that of the record and those of the modules in its rows. -/
def IsKeyOf (table : LookupTable) (key : String) : Prop :=
  key = recordKey ∨ ∃ (path : String) (row : TableEntry), table[path]? = some row ∧
    (key = storageKey path row.min .optimized ∨ key = storageKey path row.max .full)

theorem isKeyOf_tableOf {key : String} : IsKeyOf (tableOf rendered) key ↔
    key = recordKey ∨ key ∈ rendered.toList.flatMap fun (path, package) =>
      moduleKeys path package := by
  refine or_congr_right ?_
  simp only [List.mem_flatMap, Prod.exists, Std.ExtTreeMap.mem_toList_iff_getElem?_eq_some]
  constructor
  · rintro ⟨path, row, hrow, hkey⟩
    rw [getElem?_tableOf] at hrow
    obtain ⟨package, hpackage, rfl⟩ := Option.map_eq_some_iff.1 hrow
    exact ⟨path, package, hpackage, (mem_moduleKeys path package key).2 hkey⟩
  · rintro ⟨path, package, hpackage, hkey⟩
    refine ⟨path, ⟨package.optimized.digest, package.full.digest⟩, ?_,
      (mem_moduleKeys path package key).1 hkey⟩
    rw [getElem?_tableOf, hpackage, Option.map_some]

/-- The objects that are stored: two for each package, and the record.  Their keys are all
different, and they are those that the table stands for. -/
theorem exists_storing_eq (h : IsRendered rendered) (order : UploadOrder) :
    ∃ puts : List (String × StoredObject), storing order rendered = storeAll puts ∧
      (puts.map Prod.fst).Nodup ∧ puts.length = 2 * rendered.size + 1 ∧
      ∀ key, key ∈ puts.map Prod.fst ↔ IsKeyOf (tableOf rendered) key := by
  let modules := rendered.toList.flatMap fun (path, package) => moduleKeys path package
  have hmodules : recordKey ∉ modules := by
    intro hkey
    obtain ⟨⟨path, package⟩, -, hkey⟩ := List.mem_flatMap.1 hkey
    obtain ⟨variant, hkey⟩ := exists_moduleKey_eq hkey
    exact storageKey_ne_recordKey hkey.symm
  have hlength : modules.length = 2 * rendered.size := by
    rw [List.length_flatMap, ← Std.ExtTreeMap.length_toList]
    simp [moduleKeys, Nat.mul_comm]
  obtain ⟨puts, hputs⟩ := exists_eq_storeAll fun e => store_of_mem_storing h order (e := e)
  have hkeys : (puts.map Prod.fst).Perm (recordKey :: modules) := by
    have hmoved := ((order.perm (uploads rendered)).filterMap Effect.key?).append_right [recordKey]
    rw [keys_uploads h] at hmoved
    rw [← keys_storeAll, ← hputs, storing, List.filterMap_append]
    exact hmoved.trans (List.perm_append_singleton recordKey modules)
  refine ⟨puts, hputs, ?_, ?_, fun key => ?_⟩
  · exact hkeys.nodup_iff.2 (List.nodup_cons.2 ⟨hmodules, nodup_moduleKeys h⟩)
  · rw [← List.length_map, hkeys.length_eq, List.length_cons, hlength]
  · rw [hkeys.mem_iff, List.mem_cons, isKeyOf_tableOf]

/-! ### Performing them -/

variable {β : Type} {bucket : Bucket β} {depot : Depot β}

theorem performAll_append (first second : List Effect) :
    performAll bucket depot (first ++ second) =
      match performAll bucket depot first with
      | (.error e, depot) => (.error e, depot)
      | (.ok (), depot) => performAll bucket depot second := by
  induction first generalizing depot with
  | nil => rfl
  | cons effect first ih =>
    rw [List.cons_append, performAll, performAll]
    cases hperform : perform bucket depot effect with
    | mk result depot' =>
      cases result with
      | error e => rfl
      | ok _ => exact ih

/-- A call renders its universe and performs the effects of that, or it ends before the first of
them. -/
theorem publishAll_cases {σ : Type} {frontEnd : FrontEnd σ} {settings : Settings} {w : Workspace}
    {paths : List String} {c c' : BuildContext σ} {depot' : Depot β}
    {result : Except PublishError PublishReport}
    (h : publishAll frontEnd bucket settings w paths c depot = (result, c', depot')) :
    (∃ e, (renderUniverse frontEnd settings.schedule w.sources settings.ext c paths =
          (.error e, c') ∨ e = .build (.worker .overstaffed)) ∧
        result = .error e ∧ depot' = depot) ∨
      ∃ rendered result₁,
        renderUniverse frontEnd settings.schedule w.sources settings.ext c paths =
          (.ok rendered, c') ∧
        performAll bucket depot (effects settings.order settings.tablePath rendered) =
          (result₁, depot') ∧
        result = result₁.map fun _ => ⟨rendered.size,
          (effects settings.order settings.tablePath rendered).length - 1, settings.tablePath⟩ := by
  unfold publishAll at h
  split at h
  · rename_i e c₁ hrender
    cases h
    exact .inl ⟨e, .inl hrender, rfl, rfl⟩
  · rename_i rendered c₁ hrender
    split at h
    · cases h
      exact .inl ⟨_, .inr rfl, rfl, rfl⟩
    · dsimp only at h
      split at h
      · rename_i e depot₁ hperform
        cases h
        exact .inr ⟨rendered, .error e, hrender, hperform, rfl⟩
      · rename_i depot₁ hperform
        cases h
        exact .inr ⟨rendered, .ok (), hrender, hperform, rfl⟩

/-- A bucket that stores every object, and nowhere else than in itself. -/
def StoresAll (bucket : Bucket β) : Prop :=
  ∀ key object depot, ∃ objects, bucket.put key object depot =
    (.ok (), { depot with bucket := objects })

theorem exists_performAll_storeAll (hbucket : StoresAll bucket)
    (puts : List (String × StoredObject)) (depot : Depot β) :
    ∃ objects, performAll bucket depot (storeAll puts) =
      (.ok (), { depot with bucket := objects }) := by
  induction puts generalizing depot with
  | nil => exact ⟨depot.bucket, rfl⟩
  | cons put puts ih =>
    obtain ⟨key, object⟩ := put
    obtain ⟨objects, hput⟩ := hbucket key object depot
    obtain ⟨objects', hputs⟩ := ih { depot with bucket := objects }
    refine ⟨objects', ?_⟩
    rw [storeAll, List.map_cons, performAll, perform, hput]
    exact hputs

end Playground.Publisher
