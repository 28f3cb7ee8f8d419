import Playground.Fetch.Mirror
import Playground.Proofs.Sources

/-!
# What a fetch stores

A host serves the files of one directory under their names there (`Host.ServesNames`), as mirrors
do (`Mirror.servesNames_host`).  A package that was fetched lies directly in its directory, all that
its source files import was told, and nothing directly in another directory changed
(`Resolver.stored_of_fetch`).
-/

namespace Playground

variable {η : Type} {host : Host η} {policy : FetchPolicy} {behind : Tree}
  {t t' temporary : MemoryTree}
  {place : Path} {path name : String} {imports : List String} {files : SourceTree}

/-! ### Hosts that serve the files of a directory -/

/-- The names of the files that a host serves lead nowhere but into one directory. -/
def Host.ServesNames (host : Host η) : Prop :=
  ∀ path state files state', host.fetch path state = (.ok files, state') →
    ∀ name ∈ files, '/' ∉ name.toList

theorem Host.servesNames_ofPackages {packages : Named SourceTree}
    (h : ∀ entry ∈ packages.toList, ∀ name ∈ entry.2.keys, '/' ∉ name.toList) :
    (Host.ofPackages packages).ServesNames := by
  intro path state files state' hanswer name hname
  cases hfiles : packages[path]? with
  | none =>
    simp only [Host.ofPackages, hfiles] at hanswer
    cases hanswer
  | some found =>
    simp only [Host.ofPackages, hfiles] at hanswer
    cases hanswer
    exact h (path, files) (Std.ExtTreeMap.mem_toList_iff_getElem?_eq_some.2 hfiles) name
      (Std.ExtTreeMap.mem_keys.2 hname)

namespace Mirror

theorem notMem_of_topName? {entry : List UInt8} (h : topName? entry = some name) :
    '/' ∉ name.toList := by
  unfold topName? at h
  split at h
  · cases h
  · split at h
    · cases h
    · split at h
      · rename_i piece hpieces
        split at h
        · cases h
        · cases h
          have hmem := List.mem_singleton_self piece
          rw [← hpieces] at hmem
          rw [String.toList_ofList]
          exact Path.notMem_splitOn (List.mem_filter.1 hmem).1
      · cases h

theorem notMem_of_mem_topFiles {entries : List Bytes.Tar.Entry} :
    ∀ name ∈ topFiles entries, '/' ∉ name.toList := by
  unfold topFiles
  refine List.foldlRecOn (motive := fun files : SourceTree => ∀ name ∈ files, '/' ∉ name.toList)
    entries _ (fun name hname => absurd hname Std.ExtTreeMap.not_mem_empty) ?_
  intro files hfiles e _
  split
  · split
    · rename_i top htop
      intro name hname
      rcases Named.mem_insert.1 hname with rfl | hname
      · exact notMem_of_topName? htop
      · exact hfiles name hname
    · exact hfiles
  · exact hfiles

theorem servesNames_host (m : Mirror) (web : Web) : (m.host web).ServesNames := by
  intro path state files state' hanswer name hname
  have hanswer : interpret path (web.get (m.addressOf path)) = .ok files :=
    congrArg Prod.fst hanswer
  unfold interpret at hanswer
  split at hanswer
  · cases hanswer
  · split_ifs at hanswer
    unfold unpack at hanswer
    dsimp only at hanswer
    split at hanswer
    · cases hanswer
    · split_ifs at hanswer
      cases hanswer
      exact notMem_of_mem_topFiles name hname

end Mirror

theorem Path.read?_of_notMem {below : Path} (hname : '/' ∉ name.toList)
    (h : Path.read? name = some below) : below = [] ∨ below = [name] := by
  have hnames : Path.names name.toList = [] ∨ Path.names name.toList = [name.toList] := by
    rw [Path.names, Text.splitOn_of_notMem hname, List.filter_singleton]
    cases Path.isSkipped name.toList
    · exact .inr rfl
    · exact .inl rfl
  rw [Path.read?, Path.ofNames?] at h
  split at h
  · cases h
  · cases h
    rcases hnames with hnames | hnames <;> rw [hnames]
    · exact .inl rfl
    · exact .inr (by rw [List.map_singleton, String.ofList_toList])

theorem Workspace.Wrote.read?_eq {files : List (String × ByteArray)} {file : String × ByteArray}
    (h : Workspace.Wrote place files t t') (hname : '/' ∉ file.1.toList) (hfile : file ∈ files) :
    Path.read? file.1 = some [file.1] := by
  obtain ⟨name, hread⟩ := h.names file hfile
  rcases Path.read?_of_notMem hname hread with he | he
  · cases he
  · rw [hread, he]

/-! ### Fetching -/

namespace Resolver

variable {r r' : Resolver η}

/-- What storing a package at a place did to the sources of a session: there are source files,
nothing directly in another directory changed, and if there were none before, `imports` are all
that the source files import. -/
structure Stored (place : Path) (imports : List String) (t t' : MemoryTree) : Prop where
  closed : t'.IsClosed
  sources : t'.HoldsSources sourceExt place
  other : ∀ place' ≠ place, ∀ name, t'.files[place' ++ [name]]? = t.files[place' ++ [name]]?
  imports : ¬ t.HoldsSources sourceExt place →
    ∀ i, t'.ImportsAt sourceExt place i → i ∈ imports

/-- What storing files under single names did. -/
theorem stored_of_addPackage {w : Workspace} (ht : t.IsClosed)
    (hnames : ∀ name ∈ files, '/' ∉ name.toList)
    (hsource : ∃ file ∈ files.toList, isSourceFile file.1 sourceExt = true)
    (h : Workspace.addPackage ⟨behind, .memory t, temporary⟩ path files.toList =
      (w, .ok ())) :
    ∃ place t', Path.read? (packageDir path) = some place ∧
      w = ⟨behind, .memory t', temporary⟩ ∧
      Stored place (importsOf ((files.toList.filter fun (name, _) =>
        isSourceFile name sourceExt).map (·.2))) t t' := by
  have hname : ∀ file ∈ files.toList, '/' ∉ file.1.toList := fun file hfile =>
    hnames file.1 (Named.mem_of_getElem? (Std.ExtTreeMap.mem_toList_iff_getElem?_eq_some.1 hfile))
  have hshallow : ∀ file ∈ files.toList, ∀ below, Path.read? file.1 = some below →
      below.length ≤ 1 := by
    intro file hfile below hbelow
    rcases Path.read?_of_notMem (hname file hfile) hbelow with rfl | rfl
    · exact Nat.zero_le 1
    · exact le_rfl
  obtain ⟨place, t', hplace, rfl, hwrote⟩ := Workspace.wrote_of_addPackage ht hshallow h
  have hread : ∀ file ∈ files.toList, Path.read? file.1 = some [file.1] := fun file hfile =>
    hwrote.read?_eq (hname file hfile) hfile
  refine ⟨place, t', hplace, rfl, hwrote.closed, ?_, ?_, ?_⟩
  · obtain ⟨file, hfile, hsource⟩ := hsource
    have hmem : place ++ [file.1] ∈ Workspace.writtenBelow place files.toList := by
      refine List.mem_filterMap.2 ⟨file, hfile, ?_⟩
      rw [hread file hfile]
      rfl
    obtain ⟨written, -, -, hcontent⟩ := hwrote.content _ hmem
    exact ⟨file.1, hsource, MemoryTree.mem_files_iff.2 ⟨written.2, hcontent⟩⟩
  · intro place' hne name
    refine hwrote.other _ fun hmem => ?_
    obtain ⟨file, hfile, hwritten, -⟩ := hwrote.content _ hmem
    rw [hread file hfile] at hwritten
    exact hne (List.append_inj_left' (Option.some.inj hwritten) rfl).symm
  · rintro hnone i ⟨name, content, hsource, hcontent, hi⟩
    by_cases hmem : place ++ [name] ∈ Workspace.writtenBelow place files.toList
    · obtain ⟨file, hfile, hwritten, hfile'⟩ := hwrote.content _ hmem
      rw [hread file hfile] at hwritten
      have hname : file.1 = name := by
        have he := List.append_cancel_left (Option.some.inj hwritten)
        exact (List.cons.inj he).1
      rw [← hname] at hsource
      rw [hcontent] at hfile'
      exact mem_importsOf_iff.2 ⟨content, List.mem_map.2
        ⟨file, List.mem_filter.2 ⟨hfile, hsource⟩, (Option.some.inj hfile').symm⟩, hi⟩
    · rw [hwrote.other _ hmem] at hcontent
      exact absurd ⟨name, hsource, MemoryTree.mem_files_iff.2 ⟨content, hcontent⟩⟩ hnone

/-- Storing files under single names, successfully or not, changes nothing directly in another
directory. -/
theorem exists_addPackage {files : List (String × ByteArray)} (ht : t.IsClosed)
    (hnames : ∀ file ∈ files, '/' ∉ file.1.toList) :
    ∃ t', (Workspace.addPackage ⟨behind, .memory t, temporary⟩ path files).1 =
        ⟨behind, .memory t', temporary⟩ ∧ t'.IsClosed ∧
      ∀ place', Path.read? (packageDir path) ≠ some place' → ∀ name,
        t'.files[place' ++ [name]]? = t.files[place' ++ [name]]? := by
  unfold Workspace.addPackage
  dsimp only
  rw [Tree.createDirs]
  cases hmake : t.createDirsAt (packageDir path) with
  | error e => exact ⟨t, rfl, ht, fun _ _ _ => rfl⟩
  | ok t₁ =>
    obtain ⟨place, hplace, hmake⟩ := Results.bind_eq_ok.1 hmake
    have hplace := MemoryTree.locate_eq_ok.1 hplace
    have ht₁ := MemoryTree.isClosed_of_createDirs ht (Path.isCanonical_of_read? hplace) hmake
    obtain ⟨-, rfl⟩ := MemoryTree.of_createDirs hmake
    obtain ⟨t', htree, ht', hother⟩ := Workspace.exists_writeFiles ht₁ hplace files
    refine ⟨t', ?_, ht', fun place' hne name => hother _ fun hmem => ?_⟩
    · change Workspace.mk behind (Workspace.writeFiles _ _ _).1 temporary = _
      rw [htree]
    · obtain ⟨file, hfile, hwritten⟩ := List.mem_filterMap.1 hmem
      obtain ⟨below, hbelow, he⟩ := Option.map_eq_some_iff.1 hwritten
      rcases Path.read?_of_notMem (hnames file hfile) hbelow with rfl | rfl
      · -- the name leads to the directory itself
        rw [List.append_nil] at he
        exact MemoryTree.kind_addDirs_eq_dir_iff.2 (.inr (he ▸ List.prefix_rfl))
      · rw [List.append_inj_left' he rfl] at hplace
        exact absurd hplace hne

theorem stored_of_fetch (hhost : host.ServesNames) (ht : t.IsClosed)
    (hw : r.workspace = ⟨behind, .memory t, temporary⟩)
    (h : r.fetch host policy path = (.ok imports, r')) :
    ∃ place t', Path.read? (packageDir path) = some place ∧
      r'.workspace = ⟨behind, .memory t', temporary⟩ ∧ Stored place imports t t' := by
  unfold fetch at h
  split at h
  · cases h
  · dsimp only at h
    split at h
    · cases h
    · rename_i files state hanswer
      have hnames := hhost _ _ _ _ hanswer
      unfold store at h
      dsimp only at h
      split at h
      · cases h
      · rename_i hsources
        split at h
        · cases h
        · rename_i w hadd
          cases h
          obtain ⟨file, hfile⟩ := List.exists_mem_of_ne_nil _ hsources
          obtain ⟨hfile, hsource⟩ := List.mem_filter.1 hfile
          change Workspace.addPackage r.workspace path files.toList = (w, .ok ()) at hadd
          rw [hw] at hadd
          exact stored_of_addPackage ht hnames ⟨file, hfile, hsource⟩ hadd

end Resolver

end Playground
