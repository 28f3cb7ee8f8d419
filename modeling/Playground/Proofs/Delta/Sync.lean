import Playground.Proofs.Bytes.Gzip
import Playground.Proofs.Digest
import Playground.Proofs.Rendered

/-!
# Clients that apply deltas

A client keeps modules of one variant, each with its digest.  In a round it sends its digests, takes
in the modules that the delta carries and forgets the packages that the delta does not name.

After a round it holds exactly the modules that were rendered, whatever it held before
(`ModuleCache.apply_compute`), and so on over any run (`ModuleCache.isSound_run`).  This rests on
digests alone, so it needs that different contents which occur in the run have different digests.
-/

namespace Playground

open Playground.Bytes

/-- A module as a client holds it. -/
structure HeldModule where
  digest : Digest
  bytes : ByteArray

/-- The modules that a client holds, by import path. -/
abbrev ModuleCache := Named HeldModule

/-- A set of rendered packages and the entry package that a client asks for. -/
structure Round where
  rendered : RenderedSet
  entry : String
  renders : ∃ units, RenderedSet.render units = .ok rendered

/-- A rendered package as a client of a variant holds it. -/
def HeldModule.ofPackage (variant : Variant) (package : RenderedPackage) : HeldModule :=
  ⟨(package.get variant).digest, (package.get variant).bytes⟩

namespace ModuleCache

def manifest (cache : ModuleCache) : Manifest := cache.map fun _ held => held.digest

def take (gunzip : ByteArray → Option ByteArray) (cache : ModuleCache) (a : QueuedArtifact) :
    ModuleCache :=
  match gunzip a.contents with
  | some bytes => cache.insert a.importPath ⟨a.digest, bytes⟩
  | none => cache

def receive (gunzip : ByteArray → Option ByteArray) (cache : ModuleCache)
    (artifacts : List QueuedArtifact) : ModuleCache :=
  artifacts.foldl (take gunzip) cache

/-- Takes in what a delta carries, and forgets the packages that it does not name. -/
def apply (gunzip : ByteArray → Option ByteArray) (cache : ModuleCache) (d : Delta) : ModuleCache :=
  (cache.receive gunzip d.artifacts).filter fun path _ => d.index.contains path

/-- What the client is told in a round. -/
def delta [Gzip.Encoder] (variant : Variant) (cache : ModuleCache) (round : Round) : Delta :=
  .compute round.rendered cache.manifest variant round.entry

/-- What the client holds after a round. -/
def next [Gzip.Encoder] (gunzip : ByteArray → Option ByteArray) (variant : Variant)
    (cache : ModuleCache) (round : Round) : ModuleCache :=
  cache.apply gunzip (cache.delta variant round)

def run [Gzip.Encoder] (gunzip : ByteArray → Option ByteArray) (variant : Variant)
    (cache : ModuleCache) (rounds : List Round) : ModuleCache :=
  rounds.foldl (next gunzip variant) cache

/-- Every module is held with the digest of its bytes. -/
def IsSound (cache : ModuleCache) : Prop :=
  ∀ (path : String) (held : HeldModule), cache[path]? = some held →
    held.digest = .ofBytes held.bytes

end ModuleCache

def RenderedSet.contents (rendered : RenderedSet) (variant : Variant) : Set ByteArray :=
  {b | ∃ (path : String) (package : RenderedPackage),
    rendered[path]? = some package ∧ (package.get variant).bytes = b}

def ModuleCache.contents (cache : ModuleCache) : Set ByteArray :=
  {b | ∃ (path : String) (held : HeldModule), cache[path]? = some held ∧ held.bytes = b}

variable {gunzip : ByteArray → Option ByteArray} {cache : ModuleCache} {variant : Variant}
  {rendered : RenderedSet} {entry path : String} {artifacts : List QueuedArtifact}

namespace ModuleCache

/-! ### Taking modules in -/

theorem getElem?_receive_of_ne (h : ∀ a ∈ artifacts, a.importPath ≠ path) :
    (cache.receive gunzip artifacts)[path]? = cache[path]? := by
  unfold receive
  induction artifacts generalizing cache with
  | nil => rfl
  | cons a artifacts ih =>
    rw [List.foldl_cons, ih fun b hb => h b (List.mem_cons_of_mem _ hb), take]
    split
    · rw [Named.getElem?_insert, if_neg (h a List.mem_cons_self).symm]
    · rfl

/-- A module that was sent is held, if all modules sent for its package are the same. -/
theorem getElem?_receive {held : HeldModule} (hsent : ∃ a ∈ artifacts, a.importPath = path)
    (h : ∀ a ∈ artifacts, a.importPath = path →
      a.digest = held.digest ∧ gunzip a.contents = some held.bytes) :
    (cache.receive gunzip artifacts)[path]? = some held := by
  induction artifacts generalizing cache with
  | nil =>
    obtain ⟨a, ha, -⟩ := hsent
    cases ha
  | cons a artifacts ih =>
    have hrest : ∀ b ∈ artifacts, b.importPath = path →
        b.digest = held.digest ∧ gunzip b.contents = some held.bytes :=
      fun b hb => h b (List.mem_cons_of_mem _ hb)
    by_cases hlater : ∃ b ∈ artifacts, b.importPath = path
    · exact ih hlater hrest
    · have hnone : ∀ b ∈ artifacts, b.importPath ≠ path :=
        fun b hb hp => hlater ⟨b, hb, hp⟩
      have hpath : a.importPath = path := by
        obtain ⟨b, hb, hp⟩ := hsent
        rcases List.mem_cons.1 hb with rfl | hb
        · exact hp
        · exact absurd hp (hnone b hb)
      obtain ⟨hdigest, hbytes⟩ := h a List.mem_cons_self hpath
      show (receive gunzip (take gunzip cache a) artifacts)[path]? = some held
      rw [getElem?_receive_of_ne hnone, take, hbytes]
      dsimp only
      rw [Named.getElem?_insert, if_pos hpath.symm, hdigest]

end ModuleCache

/-! ### What a delta carries -/

namespace Delta

variable [Gzip.Encoder] {manifest : Manifest}

theorem mem_artifacts {a : QueuedArtifact} :
    a ∈ (compute rendered manifest variant entry).artifacts ↔
      ∃ package, rendered[a.importPath]? = some package ∧
        isHeld manifest variant entry a.importPath package = false ∧
          a = queued variant a.importPath package := by
  unfold compute
  rw [List.mem_map]
  constructor
  · rintro ⟨⟨q, package⟩, hmem, rfl⟩
    obtain ⟨hmem, hheld⟩ := List.mem_filter.1 hmem
    rw [Bool.not_eq_true'] at hheld
    exact ⟨package, Std.ExtTreeMap.mem_toList_iff_getElem?_eq_some.1 hmem, hheld, rfl⟩
  · rintro ⟨package, hpackage, hheld, ha⟩
    refine ⟨(a.importPath, package), List.mem_filter.2 ⟨?_, ?_⟩, ha.symm⟩
    · exact Std.ExtTreeMap.mem_toList_iff_getElem?_eq_some.2 hpackage
    · show (!isHeld manifest variant entry a.importPath package) = true
      rw [hheld]
      rfl

theorem sentPaths_eq :
    (compute rendered manifest variant entry).artifacts.map QueuedArtifact.importPath =
      (rendered.toList.filter fun (path, package) =>
        !isHeld manifest variant entry path package).map Prod.fst := by
  unfold compute
  rw [List.map_map]
  rfl

theorem nodup_sentPaths :
    ((compute rendered manifest variant entry).artifacts.map QueuedArtifact.importPath).Nodup := by
  rw [sentPaths_eq]
  exact (Named.nodup_map_fst_toList rendered).sublist (List.filter_sublist.map Prod.fst)

/-- A package is either sent or reused. -/
theorem sent_add_reused :
    (compute rendered manifest variant entry).sent +
      (compute rendered manifest variant entry).reused = rendered.size := by
  have hsent : (compute rendered manifest variant entry).sent =
      (rendered.toList.filter fun (path, package) =>
        !isHeld manifest variant entry path package).length := by
    rw [sent, ← List.length_map (f := QueuedArtifact.importPath), sentPaths_eq, List.length_map]
  have hreused : (compute rendered manifest variant entry).reused =
      (rendered.toList.filter fun (path, package) =>
        isHeld manifest variant entry path package).length := by
    have hvalues : (compute rendered manifest variant entry).index.values =
        rendered.toList.map fun (path, package) =>
          indexEntry manifest variant entry path package := by
      rw [Named.values_eq]
      show List.map Prod.snd (rendered.map (indexEntry manifest variant entry)).toList = _
      rw [Std.ExtTreeMap.toList_map, List.map_map]
      rfl
    rw [reused, hvalues, List.filter_map, List.length_map]
    rfl
  rw [hsent, hreused, ← Std.ExtTreeMap.length_toList, Nat.add_comm]
  exact View.length_filter_add rendered.toList _

/-- A client that holds what was rendered is sent the entry package alone. -/
theorem sentPaths_of_upToDate :
    (compute rendered (rendered.map fun _ package => (package.get variant).digest) variant
        entry).artifacts.map QueuedArtifact.importPath =
      if entry ∈ rendered then [entry] else [] := by
  have hheld : ∀ x ∈ rendered.toList, (!isHeld
      (rendered.map fun _ package => (package.get variant).digest) variant entry x.1 x.2) =
        decide (x.1 = entry) := by
    rintro ⟨path, package⟩ hmem
    have hpackage := Std.ExtTreeMap.mem_toList_iff_getElem?_eq_some.1 hmem
    rw [isHeld, Std.ExtTreeMap.getElem?_map, hpackage, Option.map_some, beq_self_eq_true,
      Bool.and_true]
    by_cases hpath : path = entry
    · rw [decide_eq_false (not_not_intro hpath), decide_eq_true hpath]
      rfl
    · rw [decide_eq_true hpath, decide_eq_false hpath]
      rfl
  have hfilter : (rendered.toList.filter fun x => decide (x.1 = entry)).map Prod.fst =
      rendered.keys.filter (· = entry) := by
    rw [← Std.ExtTreeMap.map_fst_toList_eq_keys, List.filter_map]
    rfl
  rw [sentPaths_eq]
  refine (congrArg (List.map Prod.fst) (List.filter_congr hheld)).trans ?_
  rw [hfilter, List.filter_eq, Named.nodup_keys.count]
  by_cases hmem : entry ∈ rendered
  · rw [if_pos (Std.ExtTreeMap.mem_keys.2 hmem), if_pos hmem]
    rfl
  · rw [if_neg fun h => hmem (Std.ExtTreeMap.mem_keys.1 h), if_neg hmem]
    rfl

theorem manifestAfter_compute :
    (compute rendered manifest variant entry).manifestAfter variant =
      rendered.map fun _ package => (package.get variant).digest := by
  show (rendered.map (indexEntry manifest variant entry)).map _ = _
  rw [Std.ExtTreeMap.map_map]
  cases variant <;> rfl

theorem mem_index : path ∈ (compute rendered manifest variant entry).index ↔ path ∈ rendered :=
  Std.ExtTreeMap.mem_map

end Delta

/-! ### Sound clients -/

namespace ModuleCache

theorem getElem?_manifest : (cache.manifest)[path]? = (cache[path]?).map HeldModule.digest :=
  Std.ExtTreeMap.getElem?_map

theorem isSound_ofRendered (hrendered : rendered.IsSound) :
    IsSound (rendered.map fun _ package => .ofPackage variant package) := by
  intro path held hheld
  rw [Std.ExtTreeMap.getElem?_map] at hheld
  obtain ⟨package, hpackage, rfl⟩ := Option.map_eq_some_iff.1 hheld
  exact hrendered path package hpackage variant

theorem contents_ofRendered :
    contents (rendered.map fun _ package => .ofPackage variant package) =
      rendered.contents variant := by
  ext b
  constructor
  · rintro ⟨path, held, hheld, rfl⟩
    rw [Std.ExtTreeMap.getElem?_map] at hheld
    obtain ⟨package, hpackage, rfl⟩ := Option.map_eq_some_iff.1 hheld
    exact ⟨path, package, hpackage, rfl⟩
  · rintro ⟨path, package, hpackage, rfl⟩
    refine ⟨path, .ofPackage variant package, ?_, rfl⟩
    rw [Std.ExtTreeMap.getElem?_map, hpackage, Option.map_some]

theorem isSound_round (round : Round) : round.rendered.IsSound :=
  round.renders.elim fun _ h => RenderedSet.isSound_of_render h

section run

variable [Gzip.Encoder]

/-! ### One round -/

/-- A sound client that applies a delta holds exactly the modules that were rendered. -/
theorem apply_compute {contents : Set ByteArray}
    (hgunzip : ∀ b, gunzip (Gzip.compress b) = some b) (hsound : cache.IsSound)
    (hrendered : rendered.IsSound) (hinj : Set.InjOn Digest.ofBytes contents)
    (hold : cache.contents ⊆ contents) (hnew : rendered.contents variant ⊆ contents) :
    cache.apply gunzip (.compute rendered cache.manifest variant entry) =
      rendered.map fun _ package => .ofPackage variant package := by
  apply Std.ExtTreeMap.ext_getElem?
  intro path
  rw [apply, Std.ExtTreeMap.getElem?_filter', Std.ExtTreeMap.getElem?_map]
  have hcontains : (Delta.compute rendered cache.manifest variant entry).index.contains path =
      rendered.contains path := Std.ExtTreeMap.contains_map
  rw [hcontains, Std.ExtTreeMap.contains_eq_isSome_getElem?]
  cases hpackage : rendered[path]? with
  | none =>
    rw [Option.map_none, Option.filter_eq_none_iff]
    intro held _ hfalse
    cases hfalse
  | some package =>
    rw [Option.map_some, Option.filter_eq_some_iff]
    refine ⟨?_, rfl⟩
    have hdigest := hrendered path package hpackage variant
    by_cases hheld : Delta.isHeld cache.manifest variant entry path package = true
    · -- a held module has the digest of the rendered one, so it is the rendered one
      have hnone : ∀ a ∈ (Delta.compute rendered cache.manifest variant entry).artifacts,
          a.importPath ≠ path := by
        rintro a ha rfl
        obtain ⟨package', hpackage', hnot, -⟩ := Delta.mem_artifacts.1 ha
        rw [hpackage] at hpackage'
        cases hpackage'
        rw [hheld] at hnot
        cases hnot
      rw [getElem?_receive_of_ne hnone]
      rw [Delta.isHeld, Bool.and_eq_true, beq_iff_eq, getElem?_manifest] at hheld
      obtain ⟨held, hcache, heq⟩ := Option.map_eq_some_iff.1 hheld.2
      have hbytes : held.bytes = (package.get variant).bytes := by
        refine hinj (hold ⟨path, held, hcache, rfl⟩) (hnew ⟨path, package, hpackage, rfl⟩) ?_
        rw [← hsound path held hcache, heq, hdigest]
      rw [hcache, HeldModule.ofPackage, ← heq, ← hbytes]
    · rw [Bool.not_eq_true] at hheld
      apply getElem?_receive
      · exact ⟨Delta.queued variant path package,
          Delta.mem_artifacts.2 ⟨package, hpackage, hheld, rfl⟩, rfl⟩
      · rintro a ha rfl
        obtain ⟨package', hpackage', -, ha⟩ := Delta.mem_artifacts.1 ha
        rw [hpackage] at hpackage'
        cases hpackage'
        rw [ha]
        exact ⟨rfl, hgunzip _⟩

/-! ### Whole runs -/

variable {contents : Set ByteArray} {rounds : List Round} {round : Round}

theorem next_eq (hgunzip : ∀ b, gunzip (Gzip.compress b) = some b) (hsound : cache.IsSound)
    (hinj : Set.InjOn Digest.ofBytes contents) (hold : cache.contents ⊆ contents)
    (hnew : round.rendered.contents variant ⊆ contents) :
    cache.next gunzip variant round =
      round.rendered.map fun _ package => .ofPackage variant package :=
  apply_compute hgunzip hsound (isSound_round round) hinj hold hnew

/-- A client stays sound, and what it holds was there at the beginning or rendered in a round. -/
theorem isSound_run (hgunzip : ∀ b, gunzip (Gzip.compress b) = some b) (hsound : cache.IsSound)
    (hinj : Set.InjOn Digest.ofBytes contents) (hold : cache.contents ⊆ contents)
    (hnew : ∀ round ∈ rounds, round.rendered.contents variant ⊆ contents) :
    (cache.run gunzip variant rounds).IsSound ∧
      (cache.run gunzip variant rounds).contents ⊆ contents := by
  induction rounds generalizing cache with
  | nil => exact ⟨hsound, hold⟩
  | cons round rounds ih =>
    have hround := hnew round List.mem_cons_self
    have hnext := next_eq hgunzip hsound hinj hold hround
    refine ih ?_ ?_ fun r hr => hnew r (List.mem_cons_of_mem _ hr)
    · rw [hnext]
      exact isSound_ofRendered (isSound_round round)
    · rw [hnext, contents_ofRendered]
      exact hround

/-- What a round leads to: with `d` the client is told what was rendered, and afterwards it holds
the modules in `cache`. -/
structure Delivered (variant : Variant) (round : Round) (d : Delta) (cache : ModuleCache) :
    Prop where
  sound : cache.IsSound
  paths : ∀ path, path ∈ cache ↔ path ∈ d.index
  bytes : (cache.map fun _ held => held.bytes) =
    round.rendered.map fun _ package => (package.get variant).bytes
  digests : cache.manifest = d.manifestAfter variant
  once : (d.artifacts.map QueuedArtifact.importPath).Nodup
  count : d.sent + d.reused = round.rendered.size
  again : ∀ entry, (Delta.compute round.rendered cache.manifest variant entry).artifacts.map
    QueuedArtifact.importPath = if entry ∈ round.rendered then [entry] else []

/-- The modules of a variant that some rounds render. -/
def rendering (variant : Variant) (rounds : List Round) : Set ByteArray :=
  {b | ∃ round ∈ rounds, b ∈ round.rendered.contents variant}

/-- After every round of a run a client that began sound holds exactly what was rendered. -/
theorem delivered_run (hgunzip : ∀ b, gunzip (Gzip.compress b) = some b) (hsound : cache.IsSound)
    (hinj : Set.InjOn Digest.ofBytes
      (cache.contents ∪ rendering variant (rounds ++ [round]))) :
    Delivered variant round ((cache.run gunzip variant rounds).delta variant round)
      (cache.run gunzip variant (rounds ++ [round])) := by
  have hnew : ∀ r ∈ rounds ++ [round], r.rendered.contents variant ⊆
      cache.contents ∪ rendering variant (rounds ++ [round]) :=
    fun r hr b hb => .inr ⟨r, hr, hb⟩
  obtain ⟨hsound', hold⟩ := isSound_run hgunzip hsound hinj Set.subset_union_left
    fun r hr => hnew r (List.mem_append_left _ hr)
  have hround := hnew round (List.mem_append_right _ (List.mem_singleton_self round))
  have hrun : cache.run gunzip variant (rounds ++ [round]) =
      round.rendered.map fun _ package => .ofPackage variant package := by
    rw [run, List.foldl_append]
    exact next_eq hgunzip hsound' hinj hold hround
  have hmanifest : (cache.run gunzip variant (rounds ++ [round])).manifest =
      round.rendered.map fun _ package => (package.get variant).digest := by
    rw [hrun, manifest, Std.ExtTreeMap.map_map]
    rfl
  constructor
  · rw [hrun]
    exact isSound_ofRendered (isSound_round round)
  · intro path
    rw [hrun, Std.ExtTreeMap.mem_map]
    exact Delta.mem_index.symm
  · rw [hrun, Std.ExtTreeMap.map_map]
    rfl
  · rw [hmanifest]
    exact Delta.manifestAfter_compute.symm
  · exact Delta.nodup_sentPaths
  · exact Delta.sent_add_reused
  · intro entry
    rw [hmanifest]
    exact Delta.sentPaths_of_upToDate

end run

/-! ### A run of two rounds -/

def unitsOf (payloads : List (String × String)) : VariantUnits :=
  let units := payloads.foldl
    (fun units (path, payload) => units.insert path ⟨path, payload.toByteArray, []⟩) ∅
  ⟨units, units⟩

def moduleOf (path payload : String) : ByteArray :=
  (Artifact.moduleText ⟨path, .empty, []⟩ payload).toByteArray

/-- The packages of a first round. -/
def firstUnits : VariantUnits := unitsOf [("a", "0\n"), ("b", "0\n"), ("c", "0\n"), ("d", "0\n")]

/-- The packages of a second round: `c` has changed, and `d` is gone. -/
def secondUnits : VariantUnits := unitsOf [("a", "0\n"), ("b", "0\n"), ("c", "1\n")]

def holding (path : String) (bytes : ByteArray) : ModuleCache :=
  (∅ : ModuleCache).insert path ⟨.ofBytes bytes, bytes⟩

theorem of_getElem?_holding {bytes : ByteArray} {name : String} {held : HeldModule}
    (h : (holding path bytes)[name]? = some held) : held = ⟨.ofBytes bytes, bytes⟩ := by
  rw [holding, Named.getElem?_insert] at h
  split at h
  · exact (Option.some.inj h).symm
  · rw [Std.ExtTreeMap.getElem?_empty] at h
    cases h

theorem isSound_holding (bytes : ByteArray) : (holding path bytes).IsSound := by
  intro name held h
  rw [of_getElem?_holding h]

theorem contents_holding (bytes : ByteArray) : (holding path bytes).contents ⊆ {bytes} := by
  rintro b ⟨name, held, h, rfl⟩
  rw [of_getElem?_holding h]
  rfl

def modules : List ByteArray :=
  [.empty, moduleOf "a" "0\n", moduleOf "b" "0\n", moduleOf "c" "0\n", moduleOf "c" "1\n",
    moduleOf "d" "0\n"]

theorem injOn_modules : Set.InjOn Digest.ofBytes {b | b ∈ modules} := by
  have hdigits : modules.map (fun b => (Digest.ofBytes b).start) =
      [[0x65, 0x33], [0x62, 0x38], [0x36, 0x33], [0x39, 0x65], [0x65, 0x64], [0x63, 0x32]] := by
    decide +kernel
  apply Digest.injOn_of_nodup
  rw [hdigits]
  decide

/-- The modules of a rendered set, by their import paths. -/
def listing (rendered : RenderedSet) : List (String × ByteArray) :=
  rendered.toList.map fun e => (e.1, (e.2.get .full).bytes)

theorem contents_subset {modules : List ByteArray}
    (h : ∀ e ∈ listing rendered, e.2 ∈ modules) :
    rendered.contents .full ⊆ {b | b ∈ modules} := by
  rintro b ⟨path, package, hpackage, rfl⟩
  exact h (path, _) (List.mem_map.2
    ⟨(path, package), Std.ExtTreeMap.mem_toList_iff_getElem?_eq_some.2 hpackage, rfl⟩)

/-- The paths of the modules that are sent to a client that holds what was rendered first. -/
def sentAfter (first second : RenderedSet) : List String :=
  (Delta.compute second (first.map fun _ package => (package.get .full).digest) .full
    "a").artifacts.map QueuedArtifact.importPath

theorem exists_rounds : ∃ first second : Round, first.entry = "a" ∧ second.entry = "a" ∧
    listing first.rendered = [("a", moduleOf "a" "0\n"), ("b", moduleOf "b" "0\n"),
      ("c", moduleOf "c" "0\n"), ("d", moduleOf "d" "0\n")] ∧
    listing second.rendered = [("a", moduleOf "a" "0\n"), ("b", moduleOf "b" "0\n"),
      ("c", moduleOf "c" "1\n")] ∧
    sentAfter first.rendered second.rendered = ["a", "c"] := by
  have hrounds : ((RenderedSet.render firstUnits).toOption.bind fun first =>
      (RenderedSet.render secondUnits).toOption.map fun second =>
        (listing first, listing second, sentAfter first second)) =
      some ([("a", moduleOf "a" "0\n"), ("b", moduleOf "b" "0\n"), ("c", moduleOf "c" "0\n"),
        ("d", moduleOf "d" "0\n")],
        [("a", moduleOf "a" "0\n"), ("b", moduleOf "b" "0\n"), ("c", moduleOf "c" "1\n")],
        ["a", "c"]) := by
    decide +kernel
  obtain ⟨first, hfirst, hrest⟩ := Option.bind_eq_some_iff.1 hrounds
  obtain ⟨second, hsecond, hlistings⟩ := Option.map_eq_some_iff.1 hrest
  rw [Prod.mk.injEq, Prod.mk.injEq] at hlistings
  exact ⟨⟨first, "a", firstUnits, Results.toOption_eq_some.1 hfirst⟩,
    ⟨second, "a", secondUnits, Results.toOption_eq_some.1 hsecond⟩, rfl, rfl, hlistings⟩

theorem Delivered.keys_eq {round : Round} {d : Delta} (h : Delivered .full round d cache) :
    cache.keys = (listing round.rendered).map Prod.fst := by
  have hkeys := congrArg Std.ExtTreeMap.keys h.bytes
  rw [Std.ExtTreeMap.keys_map, Std.ExtTreeMap.keys_map] at hkeys
  rw [hkeys, listing, List.map_map, ← Std.ExtTreeMap.map_fst_toList_eq_keys]
  rfl

/-- A client with a module of another build goes through two rounds.  In the second one a module is
reused, one has changed and is sent besides that of the entry package, and one is gone. -/
theorem delivered_run_twoRounds :
    ∃ first second : Round,
      let held := run Gzip.decompress? .full (holding "z" .empty) [first]
      let after := run Gzip.decompress? .full (holding "z" .empty) ([first] ++ [second])
      held.keys = ["a", "b", "c", "d"] ∧ after.keys = ["a", "b", "c"] ∧
        (held.delta .full second).artifacts.map QueuedArtifact.importPath = ["a", "c"] ∧
        (held.delta .full second).reused = 1 ∧
        Delivered .full second (held.delta .full second) after := by
  obtain ⟨first, second, -, hentry, hfirst, hsecond, hsent⟩ := exists_rounds
  have hold : (holding "z" .empty).contents ⊆ {b | b ∈ modules} := by
    refine (contents_holding _).trans ?_
    rw [Set.singleton_subset_iff]
    exact List.mem_cons_self
  have hnew₁ : first.rendered.contents .full ⊆ {b | b ∈ modules} :=
    contents_subset (by simp [hfirst, modules])
  have hnew₂ : second.rendered.contents .full ⊆ {b | b ∈ modules} :=
    contents_subset (by simp [hsecond, modules])
  have hinj : Set.InjOn Digest.ofBytes
      ((holding "z" .empty).contents ∪ rendering .full ([first] ++ [second])) := by
    refine injOn_modules.mono (Set.union_subset hold ?_)
    rintro b ⟨round, hround, hb⟩
    rcases List.mem_cons.1 hround with rfl | hround
    · exact hnew₁ hb
    · rw [List.mem_singleton.1 hround] at hb
      exact hnew₂ hb
  have hinj₁ : Set.InjOn Digest.ofBytes
      ((holding "z" .empty).contents ∪ rendering .full ([] ++ [first])) := by
    refine hinj.mono (Set.union_subset_union_right _ ?_)
    rintro b ⟨round, hround, hb⟩
    exact ⟨round, List.mem_append_left _ hround, hb⟩
  have hheld := delivered_run Gzip.decompress?_store (isSound_holding .empty) hinj₁
  have hafter := delivered_run Gzip.decompress?_store (isSound_holding .empty) hinj
  have hartifacts : ((run Gzip.decompress? .full (holding "z" .empty) [first]).delta .full
      second).artifacts.map QueuedArtifact.importPath = ["a", "c"] := by
    have hmanifest := hheld.digests.trans Delta.manifestAfter_compute
    rw [← hsent, sentAfter, ← hmanifest, delta, hentry]
    rfl
  refine ⟨first, second, ?_, ?_, hartifacts, ?_, hafter⟩
  · rw [← List.nil_append [first], hheld.keys_eq, hfirst]
    rfl
  · rw [hafter.keys_eq, hsecond]
    rfl
  · have hsize := congrArg List.length hsecond
    rw [listing, List.length_map, Std.ExtTreeMap.length_toList] at hsize
    have hcount := hafter.count
    rw [hsize, Delta.sent, ← List.length_map, hartifacts] at hcount
    exact Nat.add_left_cancel hcount

end ModuleCache

end Playground
