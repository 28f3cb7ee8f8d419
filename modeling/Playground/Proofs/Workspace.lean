import Playground.Proofs.Package
import Playground.Proofs.Tree.Components
import Playground.Proofs.Tree.Memory

/-!
# Adding a package to a workspace

What adding a package does to how the others are read, for sources that are held in memory.  A place
of the stacked sources belongs to the first layer that has anything there, a directory above a
package included.  So a package is read as before unless the new one covers it, by making its
directory on the way, or replaces it, by a file where its directory is looked up.
-/

namespace Playground

/-! ### Written paths -/

theorem View.listAt_of_read? (v : View) {dir : String} {place : Path}
    (hdir : Path.read? dir = some place) : v.listAt dir = v.list place := by
  rw [View.listAt, MemoryTree.locate_eq_ok.2 hdir]
  rfl

theorem View.readAt_join (v : View) {dir name : String} {place : Path}
    (hdir : Path.read? dir = some place) (hname : Path.IsName name) :
    v.readAt (Path.join dir name) = v.read (place ++ [name]) := by
  have hread : Path.read? (Path.join dir name) = some (place ++ [name]) := by
    rw [Path.read?_join, hdir, Path.read?_name hname]
    rfl
  rw [View.readAt, MemoryTree.locate_eq_ok.2 hread]
  rfl

namespace Workspace

open Package (isImportPath place load sourceNames)

variable {root t t' temporary : MemoryTree} {ext p q dir name : String}
variable {files : List (String × ByteArray)} {w' : Workspace}

/-! ### Reading stacked trees -/

/-- Sources held in memory, those of the session over the library. -/
def stacked (t root : MemoryTree) : View := .overlay [t.view, root.view]

theorem sources_memory : sources ⟨.memory root, .memory t, temporary⟩ = stacked t root := rfl

theorem list_stacked (t root : MemoryTree) (place : Path) : (stacked t root).list place =
    if (t.kind place).isSome then t.list place
    else if (root.kind place).isSome then root.list place
    else .error (.notFound place.text) := by
  have hlayer : View.layer? [t.view, root.view] place =
      if (t.kind place).isSome then some t.view
      else if (root.kind place).isSome then some root.view else none := by
    simp only [View.layer?, List.find?_cons, MemoryTree.view, List.find?_nil]
    split <;> split <;> simp_all
  change View.overlayList [t.view, root.view] place = _
  rw [View.overlayList, hlayer]
  split_ifs <;> rfl

theorem listAt_packageDir (sources : View) (hq : isImportPath q = true) :
    sources.listAt (packageDir q) = sources.list (place q) :=
  sources.listAt_of_read? (Package.read?_packageDir hq)

theorem readAt_packageDir (sources : View) (hq : isImportPath q = true)
    (hname : Path.IsName name) :
    sources.readAt (Path.join (packageDir q) name) = sources.read (place q ++ [name]) :=
  sources.readAt_join (Package.read?_packageDir hq) hname

theorem kind_of_isSource {e : Entry} (h : e.isSource ext = true) : e.kind = .file := by
  rw [Entry.isSource, Bool.and_eq_true, Entry.isDir] at h
  cases hk : e.kind <;> simp_all

theorem sourceNames_of_dir (hq : isImportPath q = true) (hk : t.kind (place q) = some .dir) :
    sourceNames t.view ext q =
      .ok (((t.entries (place q)).filter (Entry.isSource ext)).map Entry.name) := by
  rw [sourceNames, listAt_packageDir _ hq, MemoryTree.list_of_dir hk]
  rfl

/-- The source files that a closed tree lists in the directory of a package are there, under names
that can be joined to the directory. -/
theorem of_sourceNames (ht : t.IsClosed) (hq : isImportPath q = true) {names : List String}
    (h : sourceNames t.view ext q = .ok names) (hname : name ∈ names) :
    Path.IsName name ∧ ∃ content, t.files[place q ++ [name]]? = some content := by
  have hdir : t.kind (place q) = some .dir := by
    rw [sourceNames, listAt_packageDir _ hq] at h
    obtain ⟨found, hfound, -⟩ := Results.map_eq_ok.1 h
    exact t.isOk_list_iff.1 (Results.isOk_iff.2 ⟨found, hfound⟩)
  rw [sourceNames_of_dir hq hdir] at h
  cases h
  obtain ⟨e, he, rfl⟩ := List.mem_map.1 hname
  rw [(MemoryTree.filter_entries_perm fun _ => kind_of_isSource).mem_iff, List.mem_filter,
    MemoryTree.mem_filesIn] at he
  have hfile := he.1.2
  have hcanonical := (ht _ (by simp) (.inr hfile)).1
  exact ⟨hcanonical e.name (by simp), MemoryTree.mem_files_iff.1 hfile⟩

/-! ### Layers -/

theorem read_of_kind_eq_none (ht : t.IsClosed) {dir : Path} (hdir : t.kind dir = none)
    (name : String) :
    t.read (dir ++ [name]) = .error (.notFound (dir ++ [name]).text) := by
  have habsent : ¬ (t.kind (dir ++ [name]) = some .dir ∨ dir ++ [name] ∈ t.files) := by
    intro h
    have hparent := (ht _ (by simp) h).2
    rw [List.dropLast_concat, hdir] at hparent
    cases hparent
  have hnofile : t.files[dir ++ [name]]? = none := by
    rw [Std.ExtTreeMap.getElem?_eq_none]
    exact fun h => habsent (.inr h)
  rw [MemoryTree.read, hnofile]
  simp only [if_neg fun h => habsent (.inl h)]

theorem overlayRead_append {above : List MemoryTree} {below : List View} {dir : Path}
    (habove : ∀ s ∈ above, s.IsClosed ∧ s.kind dir = none) (name : String) :
    View.overlayRead (above.map MemoryTree.view ++ below) (dir ++ [name]) =
      View.overlayRead below (dir ++ [name]) := by
  induction above with
  | nil => rfl
  | cons s above ih =>
    obtain ⟨hs, hdir⟩ := habove s List.mem_cons_self
    have hread : s.view.read (dir ++ [name]) = _ := read_of_kind_eq_none hs hdir name
    rw [List.map_cons, List.cons_append, View.overlayRead, hread]
    exact ih fun s hmem => habove s (List.mem_cons_of_mem _ hmem)

/-- A package is read from the first layer that has anything at its place. -/
theorem load_layers (above : List MemoryTree) (below : List View)
    (habove : ∀ s ∈ above, s.IsClosed ∧ s.kind (place q) = none) (ht : t.IsClosed)
    (hq : isImportPath q = true) (hk : (t.kind (place q)).isSome = true) :
    load (.overlay (above.map MemoryTree.view ++ t.view :: below)) ext q = load t.view ext q := by
  have hlayer : View.layer? (above.map MemoryTree.view ++ t.view :: below) (place q) =
      some t.view := by
    have hnone : (above.map MemoryTree.view).find? (fun layer => (layer.kind (place q)).isSome) =
        none := by
      rw [List.find?_eq_none]
      intro layer hlayer
      obtain ⟨s, hs, rfl⟩ := List.mem_map.1 hlayer
      have hdir : s.view.kind (place q) = none := (habove s hs).2
      simp [hdir]
    rw [View.layer?, List.find?_append, hnone, Option.none_or]
    exact List.find?_cons_of_pos hk
  have hnames : sourceNames (.overlay (above.map MemoryTree.view ++ t.view :: below)) ext q =
      sourceNames t.view ext q := by
    rw [sourceNames, sourceNames, listAt_packageDir _ hq, listAt_packageDir _ hq]
    change Except.map _ (View.overlayList _ _) = _
    rw [View.overlayList, hlayer]
  refine Package.load_congr hnames fun names h name hname => ?_
  rw [hnames] at h
  obtain ⟨hname', content, hcontent⟩ := of_sourceNames ht hq h hname
  have hread : t.view.read (place q ++ [name]) = .ok content := MemoryTree.read_eq_ok hcontent
  rw [readAt_packageDir _ hq hname', readAt_packageDir _ hq hname', hread]
  change View.overlayRead _ _ = _
  rw [overlayRead_append habove, View.overlayRead, hread]

theorem load_layers_of_none (layers : List MemoryTree)
    (h : ∀ s ∈ layers, s.kind (place q) = none) (hq : isImportPath q = true) :
    load (.overlay (layers.map MemoryTree.view)) ext q = .error (.notFound q) := by
  have hlayer : View.layer? (layers.map MemoryTree.view) (place q) = none := by
    rw [View.layer?, List.find?_eq_none]
    intro layer hlayer
    obtain ⟨s, hs, rfl⟩ := List.mem_map.1 hlayer
    have hdir : s.view.kind (place q) = none := h s hs
    simp [hdir]
  have hlist : (View.overlay (layers.map MemoryTree.view)).list (place q) =
      .error (.notFound (place q).text) := by
    change View.overlayList _ _ = _
    rw [View.overlayList, hlayer]
  rw [Package.load_eq hq, sourceNames, listAt_packageDir _ hq, hlist]
  rfl

theorem load_view_of_none (hq : isImportPath q = true) (hk : t.kind (place q) = none) :
    load t.view ext q = .error (.notFound q) := by
  have hlist : t.view.list (place q) = .error (.notFound (place q).text) := by
    change t.list (place q) = _
    rw [MemoryTree.list, hk]
  rw [Package.load_eq hq, sourceNames, listAt_packageDir _ hq, hlist]
  rfl

/-! ### Where a package is read from -/

theorem load_stacked_of_file (hq : isImportPath q = true) (hk : t.kind (place q) = some .file) :
    load (stacked t root) ext q = .error (.tree (.notADirectory (place q).text)) := by
  have hlist : (stacked t root).list (place q) = .error (.notADirectory (place q).text) := by
    rw [list_stacked, hk, MemoryTree.list, hk]
    rfl
  rw [Package.load_eq hq, sourceNames, listAt_packageDir _ hq, hlist]
  rfl

theorem load_stacked_of_dir (ht : t.IsClosed) (hq : isImportPath q = true)
    (hk : t.kind (place q) = some .dir) : load (stacked t root) ext q = load t.view ext q :=
  load_layers [] [root.view] (by simp) ht hq (by simp [hk])

theorem load_stacked_of_none (hroot : root.IsClosed) (ht : t.IsClosed)
    (hq : isImportPath q = true) (hk : t.kind (place q) = none) :
    load (stacked t root) ext q = load root.view ext q := by
  cases hkind : root.kind (place q) with
  | none =>
    rw [load_view_of_none hq hkind]
    exact load_layers_of_none [t, root] (by simp [hk, hkind]) hq
  | some kind =>
    exact load_layers [t] [] (by simp [ht, hk]) hroot hq (by simp [hkind])

/-- Two states of the session with the same files directly in the directory of a package give the
same package there. -/
theorem load_view_congr (ht : t.IsClosed) (hq : isImportPath q = true)
    (hk : t.kind (place q) = some .dir) (hk' : t'.kind (place q) = some .dir)
    (hfiles : ∀ name, t.files[place q ++ [name]]? = t'.files[place q ++ [name]]?) :
    load t.view ext q = load t'.view ext q := by
  have hmem : ∀ name, place q ++ [name] ∈ t.files ↔ place q ++ [name] ∈ t'.files := fun name => by
    rw [MemoryTree.mem_files_iff, MemoryTree.mem_files_iff, hfiles]
  have hnames : sourceNames t.view ext q = sourceNames t'.view ext q := by
    rw [sourceNames_of_dir hq hk, sourceNames_of_dir hq hk',
      MemoryTree.filter_entries_congr (fun _ => kind_of_isSource) hmem]
  refine Package.load_congr hnames fun names h name hname => ?_
  obtain ⟨hname', content, hcontent⟩ := of_sourceNames ht hq h hname
  have hread := MemoryTree.read_eq_ok hcontent
  have hread' := MemoryTree.read_eq_ok ((hfiles name).symm.trans hcontent)
  rw [readAt_packageDir _ hq hname', readAt_packageDir _ hq hname']
  exact hread.trans hread'.symm

/-- Two states of the session with the same kind of thing where the directory of a package is looked
up, and the same files directly in it, give the same package. -/
theorem load_stacked_congr (hroot : root.IsClosed) (ht : t.IsClosed) (ht' : t'.IsClosed)
    (hq : isImportPath q = true) (hkind : t.kind (place q) = t'.kind (place q))
    (hfiles : ∀ name, t.files[place q ++ [name]]? = t'.files[place q ++ [name]]?) :
    load (stacked t root) ext q = load (stacked t' root) ext q := by
  cases hk : t.kind (place q) with
  | none =>
    have hk' := hkind.symm.trans hk
    rw [load_stacked_of_none hroot ht hq hk, load_stacked_of_none hroot ht' hq hk']
  | some k =>
    have hk' := hkind.symm.trans hk
    cases k with
    | file => rw [load_stacked_of_file hq hk, load_stacked_of_file hq hk']
    | dir =>
      rw [load_stacked_of_dir ht hq hk, load_stacked_of_dir ht' hq hk']
      exact load_view_congr ht hq hk hk' hfiles

theorem load_view_of_no_files (hq : isImportPath q = true) (hk : t.kind (place q) = some .dir)
    (hfiles : ∀ name, place q ++ [name] ∉ t.files) :
    load t.view ext q = .error (.noSourceFiles q) := by
  have hnone : (t.entries (place q)).filter (Entry.isSource ext) = [] := by
    rw [← List.isEmpty_iff, (MemoryTree.filter_entries_perm fun _ => kind_of_isSource).isEmpty_eq,
      List.isEmpty_iff, List.filter_eq_nil_iff]
    intro e he
    exact absurd (MemoryTree.mem_filesIn.1 he).2 (hfiles e.name)
  rw [Package.load_eq hq, sourceNames_of_dir hq hk, hnone]
  rfl

/-! ### What adding a package writes -/

/-- The places of the files of a package. -/
def writtenPlaces (p : String) (files : List (String × ByteArray)) : List Path :=
  files.filterMap fun file => (Path.read? file.1).map (place p ++ ·)

theorem of_mem_writtenPlaces (hnames : ∀ file ∈ files, ∃ name, Path.read? file.1 = some [name])
    {place' : Path} (h : place' ∈ writtenPlaces p files) : ∃ name, place' = place p ++ [name] := by
  obtain ⟨file, hfile, hplace⟩ := List.mem_filterMap.1 h
  obtain ⟨name, hname⟩ := hnames file hfile
  rw [hname] at hplace
  exact ⟨name, (Option.some.inj hplace).symm⟩

/-- The places of files that are written below a place. -/
def writtenBelow (place : Path) (files : List (String × ByteArray)) : List Path :=
  files.filterMap fun file => (Path.read? file.1).map (place ++ ·)

theorem of_write_memory {tree : Tree} {path : String} {content : ByteArray}
    (h : (Tree.memory t).write content path = (tree, .ok ())) :
    ∃ place t', Path.read? path = some place ∧ t.write place content = .ok t' ∧
      tree = .memory t' := by
  rw [Tree.write] at h
  cases hwrite : t.writeAt path content with
  | error e =>
    rw [hwrite] at h
    cases h
  | ok t' =>
    rw [hwrite] at h
    obtain ⟨place, hplace, hwrite⟩ := Results.bind_eq_ok.1 hwrite
    exact ⟨place, t', MemoryTree.locate_eq_ok.1 hplace, hwrite, (Prod.mk.inj h).1.symm⟩

theorem of_createDirs_memory {tree : Tree} {path : String}
    (h : (Tree.memory t).createDirs path = (tree, .ok ())) :
    ∃ place, Path.read? path = some place ∧ place ∉ t.files ∧ tree = .memory (t.addDirs place) := by
  rw [Tree.createDirs] at h
  cases hmake : t.createDirsAt path with
  | error e =>
    rw [hmake] at h
    cases h
  | ok t' =>
    rw [hmake] at h
    obtain ⟨place, hplace, hmake⟩ := Results.bind_eq_ok.1 hmake
    obtain ⟨hnot, rfl⟩ := MemoryTree.of_createDirs hmake
    exact ⟨place, MemoryTree.locate_eq_ok.1 hplace, hnot, (Prod.mk.inj h).1.symm⟩

/-- What writing files directly below `place` did to `t`: no directory was added, and no file but
those; each of them has a content that was written there, where no directory was. -/
structure Wrote (place : Path) (files : List (String × ByteArray)) (t t' : MemoryTree) : Prop where
  closed : t'.IsClosed
  names : ∀ file ∈ files, ∃ name, Path.read? file.1 = some [name]
  dirs : ∀ place', t'.kind place' = some .dir ↔ t.kind place' = some .dir
  other : ∀ place' ∉ writtenBelow place files, t'.files[place']? = t.files[place']?
  content : ∀ place' ∈ writtenBelow place files, ∃ file ∈ files,
    (Path.read? file.1).map (place ++ ·) = some place' ∧ t'.files[place']? = some file.2
  no_dir : ∀ place' ∈ writtenBelow place files, t.kind place' ≠ some .dir

/-- Writing one file more, before the others, under a name in a directory that is there. -/
theorem Wrote.cons {place : Path} {text : String} {content : ByteArray} {t₁ : MemoryTree}
    (h : Wrote place files t₁ t') (hread : Path.read? text = some [name])
    (hdirs : ∀ above, above <+: place → t.kind above = some .dir)
    (hwrite : t.write (place ++ [name]) content = .ok t₁) :
    Wrote place ((text, content) :: files) t t' := by
  obtain ⟨hnodir, hdirs₁, hfiles₁⟩ := MemoryTree.of_write hwrite
  have hkind : ∀ place', t₁.kind place' = some .dir ↔ t.kind place' = some .dir := by
    intro place'
    rw [hdirs₁, List.dropLast_concat]
    exact ⟨fun h => h.elim id (hdirs place'), .inl⟩
  have hwritten : writtenBelow place ((text, content) :: files) =
      (place ++ [name]) :: writtenBelow place files := by
    rw [writtenBelow, List.filterMap_cons, hread]
    rfl
  constructor
  · exact h.closed
  · rintro file hfile
    rcases List.mem_cons.1 hfile with rfl | hfile
    · exact ⟨name, hread⟩
    · exact h.names file hfile
  · exact fun place' => (h.dirs place').trans (hkind place')
  · intro place' hnot
    rw [hwritten, List.mem_cons, not_or] at hnot
    rw [h.other place' hnot.2, hfiles₁, if_neg hnot.1]
  · intro place' hmem
    rw [hwritten] at hmem
    by_cases hrest : place' ∈ writtenBelow place files
    · obtain ⟨file, hfile, hread', hcontent⟩ := h.content place' hrest
      exact ⟨file, List.mem_cons_of_mem _ hfile, hread', hcontent⟩
    · obtain rfl := (List.mem_cons.1 hmem).resolve_right hrest
      refine ⟨(text, content), List.mem_cons_self, ?_, ?_⟩
      · rw [hread]
        rfl
      · rw [h.other _ hrest, hfiles₁, if_pos rfl]
  · intro place' hmem
    rw [hwritten] at hmem
    by_cases hrest : place' ∈ writtenBelow place files
    · exact fun hdir' => h.no_dir place' hrest ((hkind place').2 hdir')
    · obtain rfl := (List.mem_cons.1 hmem).resolve_right hrest
      exact hnodir

theorem of_writeFiles_cons {tree : Tree} {place : Path} {text : String} {content : ByteArray}
    (hdir : Path.read? dir = some place)
    (h : writeFiles dir (.memory t) ((text, content) :: files) = (tree, .ok ())) :
    ∃ below t₁, Path.read? text = some below ∧ t.write (place ++ below) content = .ok t₁ ∧
      writeFiles dir (.memory t₁) files = (tree, .ok ()) := by
  unfold writeFiles at h
  split at h
  · cases h
  · rename_i tree₁ hwrite
    obtain ⟨place', t₁, hplace', hwrite, rfl⟩ := of_write_memory hwrite
    rw [Path.read?_join, hdir, Option.bind_some, Option.map_eq_some_iff] at hplace'
    obtain ⟨below, hbelow, rfl⟩ := hplace'
    exact ⟨below, t₁, hbelow, hwrite, h⟩

/-- Writing files into a directory that is there, under texts that do not lead deeper. -/
theorem of_writeFiles {tree : Tree} {place : Path} (ht : t.IsClosed)
    (hdir : Path.read? dir = some place)
    (hnames : ∀ file ∈ files, ∀ below, Path.read? file.1 = some below → below.length ≤ 1)
    (hdirs : ∀ above, above <+: place → t.kind above = some .dir)
    (h : writeFiles dir (.memory t) files = (tree, .ok ())) :
    ∃ t', tree = .memory t' ∧ Wrote place files t t' := by
  induction files generalizing t with
  | nil =>
    cases h
    exact ⟨t, rfl, ht, fun _ h => absurd h List.not_mem_nil, fun _ => Iff.rfl, fun _ _ => rfl,
      fun _ h => absurd h List.not_mem_nil, fun _ h => absurd h List.not_mem_nil⟩
  | cons file files ih =>
    obtain ⟨text, content⟩ := file
    obtain ⟨below, t₁, hread, hwrite, h⟩ := of_writeFiles_cons hdir h
    obtain ⟨hnodir, hdirs₁, -⟩ := MemoryTree.of_write hwrite
    -- the directory itself is no place for a file, so the text is a name
    obtain ⟨name, rfl⟩ : ∃ name, below = [name] := by
      have hlength := hnames (text, content) List.mem_cons_self below hread
      rcases below with - | ⟨name, - | ⟨deeper, below⟩⟩
      · rw [List.append_nil] at hnodir
        exact absurd (hdirs place List.prefix_rfl) hnodir
      · exact ⟨name, rfl⟩
      · rw [List.length_cons, List.length_cons] at hlength
        omega
    have hcanonical : Path.IsCanonical (place ++ [name]) := by
      intro part hpart
      rcases List.mem_append.1 hpart with hpart | hpart
      · exact Path.isCanonical_of_read? hdir part hpart
      · exact Path.isCanonical_of_read? hread part hpart
    obtain ⟨t', htree, hwrote⟩ := ih (MemoryTree.isClosed_of_write ht hcanonical hwrite)
      (fun file hfile => hnames file (List.mem_cons_of_mem _ hfile))
      (fun above habove => (hdirs₁ above).2 (.inl (hdirs above habove))) h
    exact ⟨t', htree, hwrote.cons hread hdirs hwrite⟩

/-- Writing files into a directory, up to the first that fails, changes no file but those, and puts
none where a directory is. -/
theorem exists_writeFiles {place : Path} (ht : t.IsClosed) (hdir : Path.read? dir = some place)
    (files : List (String × ByteArray)) :
    ∃ t', (writeFiles dir (.memory t) files).1 = .memory t' ∧ t'.IsClosed ∧
      ∀ place', (place' ∈ writtenBelow place files → t.kind place' = some .dir) →
        t'.files[place']? = t.files[place']? := by
  induction files generalizing t with
  | nil => exact ⟨t, rfl, ht, fun _ _ => rfl⟩
  | cons file files ih =>
    obtain ⟨text, content⟩ := file
    unfold writeFiles
    split
    · rename_i tree e hwrite
      rw [Tree.write] at hwrite
      cases hresult : t.writeAt (Path.join dir text) content with
      | error e' =>
        rw [hresult] at hwrite
        exact ⟨t, (Prod.mk.inj hwrite).1.symm, ht, fun _ _ => rfl⟩
      | ok t₁ =>
        rw [hresult] at hwrite
        cases (Prod.mk.inj hwrite).2
    · rename_i tree hwrite
      obtain ⟨q, t₁, hq, hput, rfl⟩ := of_write_memory hwrite
      have ht₁ := MemoryTree.isClosed_of_write ht (Path.isCanonical_of_read? hq) hput
      obtain ⟨t', htree, ht', hother⟩ := ih ht₁
      rw [Path.read?_join, hdir, Option.bind_some, Option.map_eq_some_iff] at hq
      obtain ⟨below, hbelow, rfl⟩ := hq
      obtain ⟨hnodir, hdirs, hfiles⟩ := MemoryTree.of_write hput
      have hwritten : writtenBelow place ((text, content) :: files) =
          (place ++ below) :: writtenBelow place files := by
        rw [writtenBelow, List.filterMap_cons, hbelow]
        rfl
      refine ⟨t', htree, ht', fun place' hplace' => ?_⟩
      rw [hwritten] at hplace'
      have hne : place' ≠ place ++ below := by
        rintro rfl
        exact hnodir (hplace' List.mem_cons_self)
      rw [hother place' fun hmem => (hdirs _).2 (.inl (hplace' (List.mem_cons_of_mem _ hmem))),
        hfiles, if_neg hne]

theorem of_addPackage_eq_ok {behind : Tree}
    (h : addPackage ⟨behind, .memory t, temporary⟩ p files = (w', .ok ())) :
    ∃ place tree, Path.read? (packageDir p) = some place ∧ place ∉ t.files ∧
      w' = ⟨behind, tree, temporary⟩ ∧
      writeFiles (packageDir p) (.memory (t.addDirs place)) files = (tree, .ok ()) := by
  unfold addPackage at h
  dsimp only at h
  split at h
  · cases h
  · rename_i tree₁ hmake
    obtain ⟨place, hplace, hnot, rfl⟩ := of_createDirs_memory hmake
    exact ⟨place, _, hplace, hnot, (Prod.mk.inj h).1.symm, Prod.ext rfl (Prod.mk.inj h).2⟩

/-- What adding a package under any path to its directory did, when none of its files leads deeper:
what writing its files does once the directory is there. -/
theorem wrote_of_addPackage {behind : Tree} (ht : t.IsClosed)
    (hnames : ∀ file ∈ files, ∀ below, Path.read? file.1 = some below → below.length ≤ 1)
    (h : addPackage ⟨behind, .memory t, temporary⟩ p files = (w', .ok ())) :
    ∃ place t', Path.read? (packageDir p) = some place ∧
      w' = ⟨behind, .memory t', temporary⟩ ∧ Wrote place files (t.addDirs place) t' := by
  obtain ⟨place, tree, hplace, hnot, rfl, hwrite⟩ := of_addPackage_eq_ok h
  have hmake : t.createDirs place = .ok (t.addDirs place) :=
    if_neg fun hmem => hnot (Std.ExtTreeMap.contains_iff_mem.1 hmem)
  have ht₁ := MemoryTree.isClosed_of_createDirs ht (Path.isCanonical_of_read? hplace) hmake
  obtain ⟨t', rfl, hwrote⟩ := of_writeFiles ht₁ hplace hnames
    (fun above habove => MemoryTree.kind_addDirs_eq_dir_iff.2 (.inr habove)) hwrite
  exact ⟨place, t', hplace, rfl, hwrote⟩

/-- What adding a package that succeeded did: the directories down to its own are there afterwards,
and no other is added; its files are there, where no directory was, and the others as they were. -/
theorem of_addPackage (ht : t.IsClosed) (hp : isImportPath p = true)
    (hnames : ∀ file ∈ files, ∃ name, Path.read? file.1 = some [name])
    (h : addPackage ⟨.memory root, .memory t, temporary⟩ p files = (w', .ok ())) :
    ∃ t', w' = ⟨.memory root, .memory t', temporary⟩ ∧ t'.IsClosed ∧
      (∀ place', t'.kind place' = some .dir ↔ t.kind place' = some .dir ∨ place' <+: place p) ∧
      (∀ place' ∉ writtenPlaces p files, t'.files[place']? = t.files[place']?) ∧
      ∀ place' ∈ writtenPlaces p files, place' ∈ t'.files ∧ t.kind place' ≠ some .dir := by
  have hsingle : ∀ file ∈ files, ∀ below, Path.read? file.1 = some below → below.length ≤ 1 := by
    intro file hfile below hbelow
    obtain ⟨name, hname⟩ := hnames file hfile
    cases hname.symm.trans hbelow
    exact le_rfl
  obtain ⟨place', t', hplace', hw, hwrote⟩ := wrote_of_addPackage ht hsingle h
  cases (Package.read?_packageDir hp).symm.trans hplace'
  refine ⟨t', hw, hwrote.closed, fun place' => ?_, hwrote.other, fun place' hmem => ⟨?_, ?_⟩⟩
  · rw [hwrote.dirs, MemoryTree.kind_addDirs_eq_dir_iff]
  · obtain ⟨file, -, -, hcontent⟩ := hwrote.content place' hmem
    exact MemoryTree.mem_files_iff.2 ⟨file.2, hcontent⟩
  · exact fun hdir =>
      hwrote.no_dir place' hmem (MemoryTree.kind_addDirs_eq_dir_iff.2 (.inl hdir))

/-! ### The other packages -/

/-- The directory of `q` lies above that of `p`, and the session does not have it. -/
def IsCovered (w : Workspace) (p q : String) : Prop :=
  (place q).isAbove (place p) = true ∧ w.path.view.kind (place q) ≠ some .dir

/-- One of `files` is written where the directory of `q` is looked up, and the session has nothing
there. -/
def IsReplaced (w : Workspace) (p : String) (files : List (String × ByteArray)) (q : String) :
    Prop :=
  place q ∈ writtenPlaces p files ∧ w.path.view.kind (place q) = none

instance (w : Workspace) (p q : String) : Decidable (w.IsCovered p q) :=
  inferInstanceAs (Decidable (_ ∧ _))

instance (w : Workspace) (p : String) (files : List (String × ByteArray)) (q : String) :
    Decidable (w.IsReplaced p files q) :=
  inferInstanceAs (Decidable (_ ∧ _))

/-- Adding a package changes what another one is read as exactly when it covers or replaces it.  A
package that is covered has no source files afterwards, whatever the library has for it; the place
of one that is replaced is no directory; every other package is read as before. -/
theorem load_sources_addPackage (hroot : root.Reachable) (ht : t.Reachable)
    (hp : isImportPath p = true) (hq : isImportPath q = true) (hne : q ≠ p)
    (hnames : ∀ file ∈ files, ∃ name, Path.read? file.1 = some [name])
    (h : addPackage ⟨.memory root, .memory t, temporary⟩ p files = (w', .ok ())) :
    let w : Workspace := ⟨.memory root, .memory t, temporary⟩
    (w.IsCovered p q → load w'.sources ext q = .error (.noSourceFiles q)) ∧
      (w.IsReplaced p files q →
        load w'.sources ext q = .error (.tree (.notADirectory (place q).text))) ∧
      (¬ w.IsCovered p q → ¬ w.IsReplaced p files q →
        load w'.sources ext q = load w.sources ext q) := by
  have hroot := MemoryTree.isClosed_of_reachable hroot
  have ht := MemoryTree.isClosed_of_reachable ht
  obtain ⟨t', rfl, ht', hdirs, hother, hmine⟩ := of_addPackage ht hp hnames h
  have hplaces : place q ≠ place p := Package.place_ne hq hp hne
  -- the files directly in the directory of `q` are those that were there
  have hfiles : ∀ name, t.files[place q ++ [name]]? = t'.files[place q ++ [name]]? := by
    intro name
    refine (hother _ fun hmem => ?_).symm
    obtain ⟨name', he⟩ := of_mem_writtenPlaces hnames hmem
    exact hplaces (List.append_inj_left' he rfl)
  intro w
  refine ⟨fun hcovered => ?_, fun hreplaced => ?_, fun hcovered hreplaced => ?_⟩
  · obtain ⟨habove, hkind⟩ := hcovered
    have hdir' : t'.kind (place q) = some .dir :=
      (hdirs _).2 (.inr (Path.isAbove_iff.1 habove).1)
    rw [sources_memory, load_stacked_of_dir ht' hq hdir']
    refine load_view_of_no_files hq hdir' fun name hmem => ?_
    rw [MemoryTree.mem_files_iff, ← hfiles, ← MemoryTree.mem_files_iff] at hmem
    have := (ht _ (by simp) (.inr hmem)).2
    rw [List.dropLast_concat] at this
    exact hkind this
  · obtain ⟨hmem, hkind⟩ := hreplaced
    refine load_stacked_of_file hq
      (MemoryTree.kind_eq_file_iff.2 ⟨fun hdir => ?_, (hmine _ hmem).1⟩)
    rcases (hdirs _).1 hdir with hdir | hpre
    · exact (hmine _ hmem).2 hdir
    · obtain ⟨name, he⟩ := of_mem_writtenPlaces hnames hmem
      have := hpre.length_le
      rw [he, List.length_append, List.length_singleton] at this
      omega
  · refine (load_stacked_congr hroot ht ht' hq ?_ hfiles).symm
    refine MemoryTree.kind_congr ⟨fun hdir => (hdirs _).2 (.inl hdir), fun hdir' => ?_⟩ ?_
    · by_contra hdir
      have hpre := ((hdirs _).1 hdir').resolve_left hdir
      exact hcovered ⟨Path.isAbove_iff.2 ⟨hpre, hplaces⟩, hdir⟩
    · by_cases hmem : place q ∈ writtenPlaces p files
      · refine iff_of_true ?_ (hmine _ hmem).1
        by_contra hfile
        exact hreplaced ⟨hmem, MemoryTree.kind_eq_none_iff.2 ⟨(hmine _ hmem).2, hfile⟩⟩
      · rw [MemoryTree.mem_files_iff, MemoryTree.mem_files_iff, hother _ hmem]

/-! ### A package above another one -/

def library : MemoryTree :=
  ((∅ : MemoryTree).writeAt "src/lib/lib.go" "package lib\n".toByteArray).toOption.getD ∅

theorem reachable_library : library.Reachable := by
  have hwrite : (∅ : MemoryTree).writeAt "src/lib/lib.go" "package lib\n".toByteArray =
    .ok library := rfl
  exact .write .empty hwrite

def overLibrary : Workspace := ⟨.memory library, .memory ∅, ∅⟩

/-- The files of a package whose directory lies below that of the library's package. -/
def extraFiles : List (String × ByteArray) := [("extra.go", "package extra\n".toByteArray)]

theorem exists_addPackage_extra :
    ∃ w', overLibrary.addPackage "lib/extra" extraFiles = (w', .ok ()) := ⟨_, rfl⟩

theorem read?_extraFiles : ∀ file ∈ extraFiles, ∃ name, Path.read? file.1 = some [name] := by
  intro file hfile
  rw [List.mem_singleton.1 hfile]
  exact ⟨"extra.go", by decide⟩

/-- A package of the library has no source files any more once one below it is added. -/
theorem load_lib_covered : ∃ w', overLibrary.addPackage "lib/extra" extraFiles = (w', .ok ()) ∧
    overLibrary.IsCovered "lib/extra" "lib" ∧
    load w'.sources "go" "lib" = .error (.noSourceFiles "lib") := by
  obtain ⟨w', hadd⟩ := exists_addPackage_extra
  have hcovered : overLibrary.IsCovered "lib/extra" "lib" := by decide +kernel
  exact ⟨w', hadd, hcovered, (load_sources_addPackage reachable_library .empty (by decide)
    (by decide) (by decide) read?_extraFiles hadd).1 hcovered⟩

/-- So adding a package does change others: the library's package was there to be read. -/
theorem not_load_unchanged :
    ¬ ∀ (root t temporary : MemoryTree) (ext p q : String) (files : List (String × ByteArray))
      (w' : Workspace), root.Reachable → t.Reachable → isImportPath p = true →
        isImportPath q = true → q ≠ p →
        (∀ file ∈ files, ∃ name, Path.read? file.1 = some [name]) →
        addPackage ⟨.memory root, .memory t, temporary⟩ p files = (w', .ok ()) →
        load w'.sources ext q = load (sources ⟨.memory root, .memory t, temporary⟩) ext q := by
  intro h
  obtain ⟨w', hadd⟩ := exists_addPackage_extra
  have hsame := h library ∅ ∅ "go" "lib/extra" "lib" extraFiles w' reachable_library .empty
    (by decide) (by decide) (by decide) read?_extraFiles hadd
  have hbefore : (load overLibrary.sources "go" "lib").isOk = true := by decide +kernel
  have hafter : (load (overLibrary.addPackage "lib/extra" extraFiles).1.sources "go" "lib").isOk =
      false := by decide +kernel
  rw [hadd, hsame] at hafter
  exact Bool.false_ne_true (hafter.symm.trans hbefore)

end Workspace

end Playground
