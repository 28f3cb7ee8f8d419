import Playground.Proofs.Publish.Agreement
import Playground.Proofs.Tree.Components
import Playground.Store.WebBucket

/-!
# Keys that buckets accept

Buckets accept the keys that read back as they stand, other than the empty one
(`validateKey_eq_ok_iff`).  The key of a module is the written form of a place: its import path
below the prefix of all keys, the last name continued by the digest and the suffixes.  So a key is
accepted whenever its import path is one, and no bucket calls a key of published packages invalid.

Main statement: keys are accepted, and they are different for different modules
(`Publisher.storageKey_unambiguous_and_accepted`).
-/

namespace Playground

open Playground.Path

variable {key path : String} {p : Path} {digest : Digest} {variant : Variant}

/-! ### Accepted keys -/

theorem isName_iff_isEmptyPiece {name : String} : IsName name ↔
    isEmptyPiece name.toList = false ∧ '\\' ∉ name.toList ∧ '/' ∉ name.toList := by
  simp only [IsName, isSkipped, isForbidden, isEmptyPiece, Bool.or_eq_false_iff,
    decide_eq_false_iff_not, List.contains_eq_mem, and_assoc]

theorem isKey_iff : isKey key = true ↔ key ≠ "" ∧ (components key).IsCanonical := by
  by_cases hkey : key = ""
  · simp [hkey, isKey]
  have hpieces : ∀ name, name ∈ components key ↔ name.toList ∈ Text.splitOn '/' key.toList := by
    intro name
    rw [components, if_neg hkey, List.mem_map]
    exact ⟨by rintro ⟨piece, hpiece, rfl⟩; rwa [String.toList_ofList],
      fun h => ⟨_, h, String.ofList_toList⟩⟩
  simp only [isKey, Bool.and_eq_true, bne_iff_ne, Bool.not_eq_true', List.contains_eq_mem,
    decide_eq_false_iff_not, decide_eq_true_eq, List.any_eq_false, Bool.not_eq_true]
  constructor
  · rintro ⟨⟨⟨-, -⟩, hbackslash⟩, hempty⟩
    rw [← text_components key, backslash_notMem_text] at hbackslash
    refine ⟨hkey, fun name hname => ?_⟩
    have hpiece := (hpieces name).1 hname
    exact isName_iff_isEmptyPiece.2
      ⟨hempty _ hpiece, hbackslash name hname, notMem_splitOn hpiece⟩
  · rintro ⟨-, hcanonical⟩
    have hname : ∀ piece ∈ Text.splitOn '/' key.toList, IsName (String.ofList piece) :=
      fun piece hpiece => hcanonical _ ((hpieces _).2 (by rwa [String.toList_ofList]))
    have hempty : ∀ piece ∈ Text.splitOn '/' key.toList, isEmptyPiece piece = false := by
      intro piece hpiece
      have := (isName_iff_isEmptyPiece.1 (hname piece hpiece)).1
      rwa [String.toList_ofList] at this
    refine ⟨⟨⟨hkey, fun hslash => ?_⟩, ?_⟩, hempty⟩
    · -- a separator in front has the empty piece before it
      obtain ⟨cs, hcs⟩ := List.head?_eq_some_iff.1 hslash
      have hfirst := hempty [] (by rw [hcs]; exact List.mem_cons_self)
      cases hfirst
    · rw [← text_components key, backslash_notMem_text]
      exact fun name hname => (isName_iff.1 (hcanonical name hname)).2.1

/-- Buckets accept the keys that read back as they stand, other than the empty one. -/
theorem validateKey_eq_ok_iff :
    validateKey key = .ok () ↔ key ≠ "" ∧ canonical? key = some key := by
  rw [canonical?_eq_self_iff, ← isKey_iff, validateKey]
  split
  · rename_i h
    exact iff_of_true rfl h
  · rename_i h
    exact iff_of_false nofun h

/-! ### Keys of modules -/

/-- What a key has behind the import path. -/
def moduleSuffix (digest : Digest) (variant : Variant) : String :=
  "." ++ digest.text ++ variant.keySuffix ++ ".js"

theorem storageKey_eq (path : String) (digest : Digest) (variant : Variant) :
    storageKey path digest variant =
      storagePrefix ++ "/" ++ (path ++ moduleSuffix digest variant) := by
  simp only [storageKey, moduleSuffix, String.append_assoc]

theorem notMem_moduleSuffix (hd : digest.IsHex) {c : Char} (hc : c = '\\' ∨ c = '/') :
    c ∉ (moduleSuffix digest variant).toList := by
  intro hmem
  have hchars : c ∈ ".".toList ++ hexDigits ++ variant.keySuffix.toList ++ ".js".toList := by
    simp only [moduleSuffix, String.toList_append, List.mem_append] at hmem ⊢
    exact hmem.imp_left (.imp_left (.imp_right (hd.2 c)))
  rcases hc with rfl | rfl <;> cases variant <;> revert hchars <;> decide

/-- A name that a module's suffix continues is neither a step nor does it hold marks. -/
theorem isName_append_moduleSuffix {name : String} (hname : IsName name) (hd : digest.IsHex)
    (variant : Variant) : IsName (name ++ moduleSuffix digest variant) := by
  have hlong : 2 < (name ++ moduleSuffix digest variant).toList.length := by
    simp only [moduleSuffix, String.toList_append, List.length_append, hd.1, Digest.length]
    omega
  have hmarks : ∀ c, c = '\\' ∨ c = '/' → c ∉ name.toList →
      c ∉ (name ++ moduleSuffix digest variant).toList := by
    intro c hc hcname hmem
    rw [String.toList_append, List.mem_append] at hmem
    exact hmem.elim hcname (notMem_moduleSuffix hd hc)
  rw [isName_iff] at hname ⊢
  refine ⟨⟨?_, ?_, ?_⟩, hmarks _ (.inl rfl) hname.2.1, hmarks _ (.inr rfl) hname.2.2⟩ <;>
  · intro he
    rw [he] at hlong
    revert hlong
    decide

/-- The key of a module is accepted. -/
theorem validateKey_storageKey (hpath : Package.isImportPath path = true) (hd : digest.IsHex)
    (variant : Variant) : validateKey (storageKey path digest variant) = .ok () := by
  obtain ⟨hne, p, hread, rfl⟩ := Package.isImportPath_iff.1 hpath
  have hp := isCanonical_of_read? hread
  obtain ⟨dir, last, rfl⟩ := (List.eq_nil_or_concat' p).resolve_left
    (mt (text_eq_empty_iff hp).2 hne)
  have hkey : storageKey (text (dir ++ [last])) digest variant =
      text (storagePrefix :: (dir ++ [last ++ moduleSuffix digest variant])) := by
    rw [storageKey_eq, text_concat_append, text_cons (by simp)]
  have hcanonical :
      IsCanonical (storagePrefix :: (dir ++ [last ++ moduleSuffix digest variant])) := by
    have htop : IsName storagePrefix := by decide
    simp only [IsCanonical, List.forall_mem_cons, List.forall_mem_append] at hp ⊢
    exact ⟨htop, hp.1, isName_append_moduleSuffix hp.2.1 hd variant,
      fun _ h => absurd h List.not_mem_nil⟩
  rw [hkey, validateKey_eq_ok_iff]
  exact ⟨fun he => by simpa using (text_eq_empty_iff hcanonical).1 he, canonical?_text hcanonical⟩

/-! ### Buckets -/

/-- The buckets there are. -/
inductive IsProvided : {β : Type} → Bucket β → Prop where
  | memory (failOn : Option String) : IsProvided (memoryBucket failOn)
  | directory (mark base : String) : IsProvided (directoryBucket mark base)
  | web (web : Web) (base : String) : IsProvided (webBucket web base)

variable {σ β : Type} {bucket : Bucket β} {depot depot' : Depot β} {object : StoredObject}
  {key' : String}

theorem putBelow_ne_invalidKey (mark base key : String) (bytes : ByteArray) (d : Disk) :
    (putBelow mark base key bytes d).1 ≠ .error (.invalidKey key') := by
  unfold putBelow
  dsimp only
  split
  · nofun
  · have hparent : ∀ e, (makeParent (objectPath base key) d).1 = .error e →
        e ≠ .invalidKey key' := by
      intro e he
      unfold makeParent at he
      split at he
      · cases he
      · split at he <;> cases he
        nofun
    split
    · rename_i e d₁ h
      exact fun he => hparent e (congrArg Prod.fst h) (Except.error.inj he)
    · unfold writeThrough
      split
      · nofun
      · split <;> nofun

theorem IsProvided.put_ne_invalidKey (h : IsProvided bucket) (hkey : validateKey key = .ok ())
    (object : StoredObject) (depot : Depot β) :
    (bucket.put key object depot).1 ≠ .error (.invalidKey key') := by
  cases h with
  | memory failOn =>
    simp only [memoryBucket, hkey]
    split <;> rintro ⟨⟩
  | directory mark base =>
    simp only [directoryBucket, hkey]
    exact putBelow_ne_invalidKey mark base key object.bytes depot.disk
  | web web base =>
    simp only [webBucket, hkey]
    cases web.upload ⟨keyAddress base key, object.contentType, object.bytes⟩ with
    | failed cause => rintro ⟨⟩
    | answered status headers body =>
      rw [uploadResult]
      split <;> rintro ⟨⟩

namespace Publisher

variable {rendered : RenderedSet} {todo : List Effect} {cause : PublishError}

theorem exists_perform_of_performAll (h : performAll bucket depot todo = (.error cause, depot')) :
    ∃ effect ∈ todo, ∃ depot, (perform bucket depot effect).1 = .error cause := by
  induction todo generalizing depot with
  | nil => cases h
  | cons effect todo ih =>
    rw [performAll] at h
    split at h
    · rename_i e depot₁ hperform
      cases h
      exact ⟨effect, List.mem_cons_self, depot, congrArg Prod.fst hperform⟩
    · obtain ⟨failed, hmem, hfailed⟩ := ih h
      exact ⟨failed, List.mem_cons_of_mem _ hmem, hfailed⟩

/-- All keys under which rendered packages are stored are accepted. -/
theorem validateKey_of_mem_effects (hrendered : IsRendered rendered)
    (hpaths : ∀ path ∈ rendered, Package.isImportPath path = true) {order : UploadOrder}
    {tablePath : String} (h : .store key object ∈ effects order tablePath rendered) :
    validateKey key = .ok () := by
  rw [effects_eq, storing, List.mem_append, List.mem_append] at h
  rcases h with (h | h) | h
  · obtain ⟨path, package, variant, hpackage, he⟩ :=
      (mem_uploads hrendered).1 ((order.perm _).mem_iff.1 h)
    cases he
    have hdigest : (package.get variant).digest.IsHex := by
      rw [hrendered.sound path package hpackage variant]
      exact Digest.isHex_ofBytes _
    exact validateKey_storageKey (hpaths path (Named.mem_of_getElem? hpackage)) hdigest variant
  · cases List.mem_singleton.1 h
    rfl
  · cases List.mem_singleton.1 h

theorem validateKey_of_renderUniverse {schedule : Schedule} {sources : View} {ext : String}
    {c c' : BuildContext MemoryTree} {paths : List String} {order : UploadOrder}
    {tablePath : String}
    (h : renderUniverse Bundle.frontEnd schedule sources ext c paths = (.ok rendered, c'))
    (hstore : .store key object ∈ effects order tablePath rendered) : validateKey key = .ok () := by
  obtain ⟨units, hunits, hrender⟩ :=
    of_renderUniverse Bundle.faithful_outcome Bundle.computes_outcome h
  refine validateKey_of_mem_effects (isRendered_of_render hrender) (fun path hpath => ?_) hstore
  obtain ⟨unit, hunit⟩ := Named.mem_iff.1 (((RenderedSet.of_render hrender).2 path).1 hpath)
  cases (hunits .full).meaning path unit hunit with
  | built unitOf hload himports hbuilt => exact (Package.of_load hload).1

theorem renderUniverse_ne_storage {frontEnd : FrontEnd σ} {schedule : Schedule} {sources : View}
    {ext : String} {c : BuildContext σ} {paths : List String} {cause : StorageError} :
    (renderUniverse frontEnd schedule sources ext c paths).1 ≠ .error (.storage cause) := by
  unfold renderUniverse
  split
  · nofun
  · rename_i sessions c' hbuilt
    cases RenderedSet.render sessions.units <;> nofun

theorem perform_ne_invalidKey (hbucket : IsProvided bucket) {effect : Effect}
    (hkey : ∀ key object, effect = .store key object → validateKey key = .ok ()) :
    (perform bucket depot effect).1 ≠ .error (.storage (.invalidKey key')) := by
  cases effect with
  | store key object =>
    have hput : (bucket.put key object depot).1 ≠ .error (.invalidKey key') :=
      hbucket.put_ne_invalidKey (hkey key object rfl) object depot
    change (bucket.put key object depot).1.mapError PublishError.storage ≠ _
    cases hresult : (bucket.put key object depot).1 with
    | error cause =>
      rintro ⟨⟩
      exact hput hresult
    | ok _ => nofun
  | saveTable path table =>
    change (table.save path depot.disk).1.mapError PublishError.table ≠ _
    cases (table.save path depot.disk).1 <;> nofun

theorem publishAll_ne_invalidKey (hbucket : IsProvided bucket) {settings : Settings} {w : Workspace}
    {paths : List String} {c c' : BuildContext MemoryTree}
    {result : Except PublishError PublishReport}
    (h : publishAll Bundle.frontEnd bucket settings w paths c depot = (result, c', depot')) :
    result ≠ .error (.storage (.invalidKey key')) := by
  rintro rfl
  rcases publishAll_cases h with ⟨e, hrender, he, -⟩ | ⟨rendered, result, hrender, hperform, he⟩
  · cases he
    rcases hrender with hrender | hrender
    · exact renderUniverse_ne_storage (congrArg Prod.fst hrender)
    · cases hrender
  · cases result with
    | ok _ => cases he
    | error cause =>
      cases he
      obtain ⟨effect, heffect, depot, hfailed⟩ := exists_perform_of_performAll hperform
      refine perform_ne_invalidKey hbucket (fun key object hstore => ?_) hfailed
      exact validateKey_of_renderUniverse hrender (hstore ▸ heffect)

/-- A key is accepted when it reads back as it stands and is not empty.  The keys of modules, whose
digests are hexadecimal, are different for different modules and from the key of the record, and
they are accepted for all import paths that packages are read at.  So publishing never fails because
a key is invalid. -/
theorem storageKey_unambiguous_and_accepted :
    (∀ key, validateKey key = .ok () ↔ key ≠ "" ∧ canonical? key = some key) ∧
    (∀ (path path' : String) (digest digest' : Digest) (variant variant' : Variant),
      digest.IsHex → digest'.IsHex →
        storageKey path digest variant = storageKey path' digest' variant' →
          path = path' ∧ digest = digest' ∧ variant = variant') ∧
    (∀ (path : String) (digest : Digest) (variant : Variant),
      storageKey path digest variant ≠ recordKey) ∧
    (∀ (sources : View) (ext path : String) (digest : Digest) (variant : Variant),
      Package.load sources ext path ≠ .error (.invalidImportPath path) → digest.IsHex →
        validateKey (storageKey path digest variant) = .ok ()) ∧
    ∀ (β : Type) (bucket : Bucket β) (settings : Settings) (w : Workspace) (paths : List String)
      (c : BuildContext MemoryTree) (depot : Depot β) (key : String), IsProvided bucket →
        (publishAll Bundle.frontEnd bucket settings w paths c depot).1 ≠
          .error (.storage (.invalidKey key)) := by
  exact ⟨fun key => validateKey_eq_ok_iff, fun _ _ _ _ _ _ hd hd' => storageKey_inj hd hd',
    fun _ _ _ => storageKey_ne_recordKey, fun _ _ _ _ variant hload hd =>
      validateKey_storageKey (Package.load_ne_invalidImportPath_iff.1 hload) hd variant,
    fun _ _ _ _ _ _ _ _ hbucket => publishAll_ne_invalidKey hbucket rfl⟩

/-- A package whose path looks like a key has a key of its own, and publishing two packages with a
bucket in memory calls no key invalid. -/
theorem validateKey_minifiedName :
    let digest := Digest.ofBytes "package a\n".toByteArray
    validateKey (storageKey "a.min.js/sys" digest .optimized) = .ok () ∧
      storageKey "a.min" digest .full ≠ storageKey "a" digest .optimized ∧
      ∀ key, (publishAll Bundle.frontEnd (memoryBucket none) tableSettings overTwoPackages
        ["b", "a"] ⟨∅, false, []⟩ ⟨∅, ⟨∅, []⟩⟩).1 ≠ .error (.storage (.invalidKey key)) := by
  intro digest
  have hd : digest.IsHex := Digest.isHex_ofBytes _
  obtain ⟨-, hinj, -, haccepted, hpublish⟩ := storageKey_unambiguous_and_accepted
  have hload : Package.load overTwoPackages.sources "go" "a.min.js/sys" ≠
      .error (.invalidImportPath "a.min.js/sys") :=
    Package.load_ne_invalidImportPath_iff.2 (by decide)
  refine ⟨haccepted _ _ "a.min.js/sys" digest .optimized hload hd, fun he => ?_,
    fun key => hpublish _ _ _ _ _ _ _ key (.memory none)⟩
  exact absurd (hinj "a.min" "a" digest digest .full .optimized hd hd he).2.2 (by decide)

end Publisher

end Playground
