import Playground.Fetch.Resolver
import Playground.Proofs.Named
import Playground.Proofs.Workspace

/-!
# Source files in trees held in memory

What builds and resolvers read of a package in a closed tree held in memory is settled by the files
that lie directly in its directory: whether there are source files (`hasSources_view_iff`), which
packages they name (`Resolver.mem_importsIn_iff`, `Package.mem_imports_iff`), and, for the stacked
sources of a session, which tree is read and how the read ends (`Workspace.load_stacked_cases`).
-/

namespace Playground

variable {t : MemoryTree} {ext p dir i name : String} {place : Path} {sources : View}

/-! ### What a file imports -/

/-- A source file with the given content imports a package. -/
def Source.Names (content : ByteArray) (path : String) : Prop :=
  path ∈ importPaths (Bytes.Utf8.decodeOrEmpty content).toList ∧ namesPackage path = true

theorem Source.mem_mergeImports_iff {contents : List ByteArray} {path : String} :
    path ∈ mergeImports (contents.map fun content =>
      (Bytes.Utf8.decodeOrEmpty content).toList) ↔ ∃ content ∈ contents, Names content path := by
  rw [mergeImports, List.mem_eraseDups, List.mem_filter, List.mem_flatMap]
  constructor
  · rintro ⟨⟨file, hfile, hpath⟩, hnames⟩
    obtain ⟨content, hcontent, rfl⟩ := List.mem_map.1 hfile
    exact ⟨content, hcontent, hpath, hnames⟩
  · rintro ⟨content, hcontent, hpath, hnames⟩
    exact ⟨⟨_, List.mem_map.2 ⟨content, hcontent, rfl⟩, hpath⟩, hnames⟩

/-! ### Source files directly at a place -/

namespace MemoryTree

/-- A source file lies directly at a place. -/
def HoldsSources (t : MemoryTree) (ext : String) (place : Path) : Prop :=
  ∃ name, isSourceFile name ext = true ∧ place ++ [name] ∈ t.files

/-- A source file that lies directly at a place imports a package. -/
def ImportsAt (t : MemoryTree) (ext : String) (place : Path) (path : String) : Prop :=
  ∃ name content, isSourceFile name ext = true ∧ t.files[place ++ [name]]? = some content ∧
    Source.Names content path

theorem HoldsSources.kind_eq_dir (ht : t.IsClosed) (h : t.HoldsSources ext place) :
    t.kind place = some .dir := by
  obtain ⟨name, -, hmem⟩ := h
  have hdir := (ht _ (by simp) (.inr hmem)).2
  rwa [List.dropLast_concat] at hdir

theorem mem_sourceNames_iff :
    name ∈ ((t.entries place).filter (Entry.isSource ext)).map Entry.name ↔
      isSourceFile name ext = true ∧ place ++ [name] ∈ t.files := by
  have hmem (e : Entry) : e ∈ (t.entries place).filter (Entry.isSource ext) ↔
      (e.kind = .file ∧ place ++ [e.name] ∈ t.files) ∧ e.isSource ext = true := by
    rw [(filter_entries_perm fun _ => Workspace.kind_of_isSource).mem_iff, List.mem_filter,
      mem_filesIn]
  rw [List.mem_map]
  constructor
  · rintro ⟨e, he, rfl⟩
    obtain ⟨⟨-, hfile⟩, hsource⟩ := (hmem e).1 he
    rw [Entry.isSource, Bool.and_eq_true] at hsource
    exact ⟨hsource.2, hfile⟩
  · rintro ⟨hname, hfile⟩
    exact ⟨⟨name, .file⟩, (hmem _).2 ⟨⟨rfl, hfile⟩, by simpa [Entry.isSource, Entry.isDir] using
      hname⟩, rfl⟩

/-- A tree that has some files in one directory, and nothing else. -/
def holding (place : Path) (files : List (String × ByteArray)) : MemoryTree :=
  files.foldr (fun file t => t.put (place ++ [file.1]) file.2) ((∅ : MemoryTree).addDirs place)

theorem kind_holding_eq_dir_iff {files : List (String × ByteArray)} :
    (holding place files).kind q = some .dir ↔ q <+: place := by
  induction files with
  | nil =>
    rw [holding, List.foldr_nil, kind_addDirs_eq_dir_iff, or_iff_right_iff_imp, kind_eq_dir_iff]
    rintro (rfl | hmem)
    · exact List.nil_prefix
    · exact absurd hmem Std.ExtTreeSet.not_mem_empty
  | cons file files ih =>
    rw [holding, List.foldr_cons, kind_put_eq_dir_iff]
    exact ih

theorem getElem?_holding {files : List (String × ByteArray)} (hnodup : (files.map Prod.fst).Nodup)
    {content : ByteArray} : (holding place files).files[q]? = some content ↔
      ∃ name, (name, content) ∈ files ∧ q = place ++ [name] := by
  induction files with
  | nil =>
    have hnone : (holding place []).files[q]? = none := Std.ExtTreeMap.getElem?_empty
    simp [hnone]
  | cons file files ih =>
    obtain ⟨first, read⟩ := file
    rw [List.map_cons, List.nodup_cons] at hnodup
    rw [holding, List.foldr_cons, getElem?_put]
    split
    · rename_i he
      subst he
      constructor
      · rintro ⟨⟩
        exact ⟨first, List.mem_cons_self, rfl⟩
      · rintro ⟨name, hmem, he⟩
        obtain rfl : first = name := by simpa using he
        rcases List.mem_cons.1 hmem with he | hmem
        · cases he
          rfl
        · exact absurd (List.mem_map_of_mem hmem) hnodup.1
    · rename_i hne
      refine (ih hnodup.2).trans (exists_congr fun name => and_congr_left fun he => ?_)
      rw [List.mem_cons, or_iff_right]
      rintro ⟨⟩
      exact hne he

theorem isClosed_holding {files : List (String × ByteArray)} (hplace : place.IsCanonical)
    (hnodup : (files.map Prod.fst).Nodup) (hnames : ∀ file ∈ files, Path.IsName file.1) :
    (holding place files).IsClosed := by
  intro q hq hmem
  rw [kind_holding_eq_dir_iff] at hmem ⊢
  rcases hmem with hpre | hmem
  · exact ⟨fun name hname => hplace name (hpre.subset hname), (List.dropLast_prefix q).trans hpre⟩
  · obtain ⟨content, hcontent⟩ := mem_files_iff.1 hmem
    obtain ⟨name, hfile, rfl⟩ := (getElem?_holding hnodup).1 hcontent
    refine ⟨fun part hpart => ?_, by rw [List.dropLast_concat]⟩
    rcases List.mem_append.1 hpart with hpart | hpart
    · exact hplace part hpart
    · rw [List.mem_singleton.1 hpart]
      exact hnames _ hfile

theorem of_list {found : List Entry} (h : t.list place = .ok found) :
    t.kind place = some .dir ∧ found = t.entries place := by
  have hdir : t.kind place = some .dir := t.isOk_list_iff.1 (Results.isOk_iff.2 ⟨found, h⟩)
  rw [list, hdir] at h
  exact ⟨hdir, (Except.ok.inj h).symm⟩

theorem read_eq_ok_iff {content : ByteArray} :
    t.read place = .ok content ↔ t.files[place]? = some content := by
  rw [read]
  cases t.files[place]? <;> simp

end MemoryTree

/-! ### Written paths -/

theorem MemoryTree.readAt_join_iff (ht : t.IsClosed) (hdir : Path.read? dir = some place)
    (hmem : place ++ [name] ∈ t.files) {content : ByteArray} :
    t.view.readAt (Path.join dir name) = .ok content ↔
      t.files[place ++ [name]]? = some content := by
  have hname : Path.IsName name := (ht _ (by simp) (.inr hmem)).1 name (by simp)
  rw [View.readAt_join _ hdir hname]
  exact read_eq_ok_iff

theorem hasSources_view_iff (ht : t.IsClosed) (hp : Path.read? (packageDir p) = some place) :
    hasSources t.view ext p = true ↔ t.HoldsSources ext place := by
  rw [hasSources, View.listAt_of_read? _ hp]
  cases hlist : t.view.list place with
  | ok found =>
    obtain ⟨-, rfl⟩ := MemoryTree.of_list hlist
    simp only [List.any_eq_true]
    constructor
    · rintro ⟨e, he, hsource⟩
      have hname := MemoryTree.mem_sourceNames_iff.1
        (List.mem_map.2 ⟨e, List.mem_filter.2 ⟨he, hsource⟩, rfl⟩)
      exact ⟨e.name, hname⟩
    · rintro ⟨name, hname⟩
      obtain ⟨e, he, -⟩ := List.mem_map.1 (MemoryTree.mem_sourceNames_iff.2 hname)
      exact ⟨e, (List.mem_filter.1 he).1, (List.mem_filter.1 he).2⟩
  | error e =>
    refine iff_of_false Bool.false_ne_true fun h => ?_
    have hok := t.isOk_list_iff.2 (h.kind_eq_dir ht)
    change (t.view.list place).isOk = true at hok
    rw [hlist] at hok
    cases hok

theorem hasSources_view_eq_false_iff (ht : t.IsClosed)
    (hp : Path.read? (packageDir p) = some place) :
    hasSources t.view ext p = false ↔ ¬ t.HoldsSources ext place := by
  rw [← hasSources_view_iff ht hp, Bool.not_eq_true]

theorem hasSources_congr {q : String} (h : Path.read? (packageDir p) = Path.read? (packageDir q)) :
    hasSources sources ext p = hasSources sources ext q := by
  rw [hasSources, hasSources, View.listAt, View.listAt, View.locate, View.locate, h]
  cases Path.read? (packageDir q) <;> rfl

theorem exists_place_of_hasSources (h : hasSources sources ext p = true) :
    ∃ place, Path.read? (packageDir p) = some place := by
  rw [hasSources, View.listAt, View.locate] at h
  cases hp : Path.read? (packageDir p) with
  | some place => exact ⟨place, rfl⟩
  | none =>
    rw [hp] at h
    cases h

/-- A source file in the directory of a package imports another one. -/
def View.SourceImports (sources : View) (path i : String) : Prop :=
  ∃ found name content, sources.listAt (packageDir path) = .ok found ∧
    name ∈ (found.filter (Entry.isSource sourceExt)).map Entry.name ∧
      sources.readAt (Path.join (packageDir path) name) = .ok content ∧ Source.Names content i

theorem View.SourceImports.hasSources (h : sources.SourceImports p i) :
    hasSources sources sourceExt p = true := by
  obtain ⟨found, name, -, hfound, hname, -⟩ := h
  obtain ⟨e, he, -⟩ := List.mem_map.1 hname
  rw [Playground.hasSources, hfound]
  exact List.any_eq_true.2 ⟨e, List.mem_filter.1 he⟩

theorem MemoryTree.sourceImports_view_iff (ht : t.IsClosed)
    (hp : Path.read? (packageDir p) = some place) :
    t.view.SourceImports p i ↔ t.ImportsAt sourceExt place i := by
  constructor
  · rintro ⟨found, name, content, hfound, hname, hread, hnames⟩
    rw [View.listAt_of_read? _ hp] at hfound
    obtain ⟨-, rfl⟩ := of_list hfound
    obtain ⟨hsource, hfile⟩ := mem_sourceNames_iff.1 hname
    exact ⟨name, content, hsource, (readAt_join_iff ht hp hfile).1 hread, hnames⟩
  · rintro ⟨name, content, hsource, hcontent, hnames⟩
    have hfile := mem_files_iff.2 ⟨content, hcontent⟩
    have hholds : t.HoldsSources sourceExt place := ⟨name, hsource, hfile⟩
    refine ⟨_, name, content, ?_, mem_sourceNames_iff.2 ⟨hsource, hfile⟩,
      (readAt_join_iff ht hp hfile).2 hcontent, hnames⟩
    rw [View.listAt_of_read? _ hp]
    exact list_of_dir (hholds.kind_eq_dir ht)

/-! ### What resolvers read -/

namespace Resolver

theorem mem_importsOf_iff {contents : List ByteArray} :
    i ∈ importsOf contents ↔ ∃ content ∈ contents, Source.Names content i :=
  Source.mem_mergeImports_iff

theorem mem_readAll_iff {names : List String} {contents : List ByteArray}
    (h : readAll sources dir names = .ok contents) {content : ByteArray} :
    content ∈ contents ↔
      ∃ name ∈ names, sources.readAt (Path.join dir name) = .ok content := by
  induction names generalizing contents with
  | nil =>
    cases h
    simp
  | cons name names ih =>
    obtain ⟨first, hfirst, h⟩ := Results.bind_eq_ok.1 h
    obtain ⟨rest, hrest, h⟩ := Results.bind_eq_ok.1 h
    cases h
    rw [List.mem_cons, ih hrest]
    simp only [List.mem_cons, exists_eq_or_imp, hfirst, Except.ok.injEq, eq_comm (a := content)]

/-- The imports of a package, if they can be read, are those of its source files. -/
theorem mem_importsIn_iff_sourceImports {imports : List String}
    (h : importsIn sources p = .ok imports) : i ∈ imports ↔ sources.SourceImports p i := by
  obtain ⟨found, hfound, h⟩ := Results.bind_eq_ok.1 h
  obtain ⟨contents, hcontents, h⟩ := Results.bind_eq_ok.1 h
  cases h
  rw [mem_importsOf_iff]
  constructor
  · rintro ⟨content, hcontent, hnames⟩
    obtain ⟨name, hname, hread⟩ := (mem_readAll_iff hcontents).1 hcontent
    exact ⟨found, name, content, hfound, hname, hread, hnames⟩
  · rintro ⟨found', name, content, hfound', hname, hread, hnames⟩
    cases hfound.symm.trans hfound'
    exact ⟨content, (mem_readAll_iff hcontents).2 ⟨name, hname, hread⟩, hnames⟩

theorem mem_importsIn_iff (ht : t.IsClosed) (hp : Path.read? (packageDir p) = some place)
    {imports : List String} (h : importsIn t.view p = .ok imports) :
    i ∈ imports ↔ t.ImportsAt sourceExt place i :=
  (mem_importsIn_iff_sourceImports h).trans (MemoryTree.sourceImports_view_iff ht hp)

end Resolver

/-! ### What builds read -/

namespace Package

variable {package : Package}

theorem getElem?_readFiles_iff {names : List String} {files : Named ByteArray}
    (h : readFiles sources dir names = .ok files) {content : ByteArray} :
    files[name]? = some content ↔
      name ∈ names ∧ sources.readAt (Path.join dir name) = .ok content := by
  induction names generalizing files name content with
  | nil =>
    cases h
    simp
  | cons first names ih =>
    obtain ⟨read, hread, h⟩ := Results.bind_eq_ok.1 h
    obtain ⟨rest, hrest, h⟩ := Results.bind_eq_ok.1 h
    cases h
    rw [Std.ExtTreeMap.getElem?_insertIfNew, List.mem_cons]
    by_cases hmem : first ∈ rest
    · obtain ⟨kept, hkept⟩ := Named.mem_iff.1 hmem
      have hfirst : first ∈ names := ((ih hrest).1 hkept).1
      rw [if_neg fun h => h.2 hmem, ih hrest]
      exact and_congr_left' ⟨.inr, fun h => h.elim (fun he => he ▸ hfirst) id⟩
    · by_cases hname : name = first
      · subst hname
        rw [if_pos ⟨Std.ReflCmp.compare_self, hmem⟩, hread]
        simp
      · rw [if_neg fun h => hname (Std.LawfulEqOrd.compare_eq_iff_eq.1 h.1).symm, ih hrest]
        simp [hname]

theorem exists_readFiles {names : List String}
    (h : ∀ name ∈ names, ∃ content, sources.readAt (Path.join dir name) = .ok content) :
    ∃ files, readFiles sources dir names = .ok files := by
  induction names with
  | nil => exact ⟨∅, rfl⟩
  | cons first names ih =>
    obtain ⟨content, hcontent⟩ := h first List.mem_cons_self
    obtain ⟨files, hfiles⟩ := ih fun name hname => h name (List.mem_cons_of_mem _ hname)
    exact ⟨files.insertIfNew first content, Results.bind_eq_ok.2
      ⟨content, hcontent, Results.bind_eq_ok.2 ⟨files, hfiles, rfl⟩⟩⟩

theorem getElem?_files_iff (ht : t.IsClosed) (h : load t.view ext p = .ok package)
    {content : ByteArray} : package.files[name]? = some content ↔
      isSourceFile name ext = true ∧ t.files[Package.place p ++ [name]]? = some content := by
  obtain ⟨hp, found, files, hfound, hfiles, -, rfl⟩ := of_load h
  have hplace := read?_packageDir hp
  rw [View.listAt_of_read? _ hplace] at hfound
  obtain ⟨-, rfl⟩ := MemoryTree.of_list hfound
  rw [getElem?_readFiles_iff hfiles, MemoryTree.mem_sourceNames_iff, and_assoc]
  refine and_congr_right fun _ => ⟨fun ⟨hfile, hread⟩ => ?_, fun hcontent => ?_⟩
  · exact (MemoryTree.readAt_join_iff ht hplace hfile).1 hread
  · have hfile := MemoryTree.mem_files_iff.2 ⟨content, hcontent⟩
    exact ⟨hfile, (MemoryTree.readAt_join_iff ht hplace hfile).2 hcontent⟩

theorem mem_imports_iff (ht : t.IsClosed) (h : load t.view ext p = .ok package) :
    i ∈ package.imports ↔ t.ImportsAt ext (Package.place p) i := by
  have himports : package.imports = importsOf package.files := by
    obtain ⟨-, found, files, -, -, -, rfl⟩ := of_load h
    rfl
  rw [himports, importsOf, Source.mem_mergeImports_iff, Named.values_eq]
  constructor
  · rintro ⟨content, hcontent, hnames⟩
    obtain ⟨⟨name, content'⟩, hentry, rfl⟩ := List.mem_map.1 hcontent
    obtain ⟨hsource, hfile⟩ :=
      (getElem?_files_iff ht h).1 (Std.ExtTreeMap.mem_toList_iff_getElem?_eq_some.1 hentry)
    exact ⟨name, content', hsource, hfile, hnames⟩
  · rintro ⟨name, content, hsource, hcontent, hnames⟩
    have hentry := (getElem?_files_iff ht h).2 ⟨hsource, hcontent⟩
    exact ⟨content, List.mem_map.2
      ⟨(name, content), Std.ExtTreeMap.mem_toList_iff_getElem?_eq_some.2 hentry, rfl⟩, hnames⟩

/-- A directory with source files in it is a package, and one without them is none. -/
theorem load_view_of_dir (ext : String) (ht : t.IsClosed) (hp : isImportPath p = true)
    (hdir : t.kind (Package.place p) = some .dir) :
    (t.HoldsSources ext (Package.place p) → ∃ package, load t.view ext p = .ok package) ∧
      (¬ t.HoldsSources ext (Package.place p) →
        load t.view ext p = .error (.noSourceFiles p)) := by
  have hplace := read?_packageDir hp
  obtain ⟨files, hfiles⟩ : ∃ files, readFiles t.view (packageDir p)
      (((t.entries (Package.place p)).filter (Entry.isSource ext)).map Entry.name) = .ok files := by
    refine exists_readFiles fun name hname => ?_
    obtain ⟨-, hfile⟩ := MemoryTree.mem_sourceNames_iff.1 hname
    obtain ⟨content, hcontent⟩ := MemoryTree.mem_files_iff.1 hfile
    exact ⟨content, (MemoryTree.readAt_join_iff ht hplace hfile).2 hcontent⟩
  have hempty : files.isEmpty = true ↔ ¬ t.HoldsSources ext (Package.place p) := by
    rw [Std.ExtTreeMap.isEmpty_iff, Std.ExtTreeMap.eq_empty_iff_forall_not_mem]
    constructor
    · rintro hnone ⟨name, hsource, hfile⟩
      obtain ⟨content, hcontent⟩ := MemoryTree.mem_files_iff.1 hfile
      refine hnone name (Named.mem_of_getElem? ((getElem?_readFiles_iff hfiles).2
        ⟨MemoryTree.mem_sourceNames_iff.2 ⟨hsource, hfile⟩,
          (MemoryTree.readAt_join_iff ht hplace hfile).2 hcontent⟩))
    · intro hnone name hmem
      obtain ⟨content, hcontent⟩ := Named.mem_iff.1 hmem
      exact hnone ⟨name,
        MemoryTree.mem_sourceNames_iff.1 ((getElem?_readFiles_iff hfiles).1 hcontent).1⟩
  rw [load_eq hp, Workspace.sourceNames_of_dir hp hdir]
  dsimp only
  rw [hfiles]
  dsimp only
  constructor
  · intro hholds
    rw [if_neg fun h => (hempty.1 h) hholds]
    exact ⟨_, rfl⟩
  · intro hnone
    rw [if_pos (hempty.2 hnone)]

/-- The files that packages held in memory can have: some files, with any names of source files. -/
theorem exists_load_iff (hp : isImportPath p = true) {files : Named ByteArray} :
    (∃ (t : MemoryTree) (package : Package), t.IsClosed ∧ load t.view ext p = .ok package ∧
        package.files = files) ↔
      files ≠ ∅ ∧ ∀ name ∈ files, Path.IsName name ∧ isSourceFile name ext = true := by
  constructor
  · rintro ⟨t, package, ht, hload, rfl⟩
    refine ⟨fun hempty => ?_, fun name hmem => ?_⟩
    · obtain ⟨-, found, files, -, -, hne, rfl⟩ := of_load hload
      rw [Std.ExtTreeMap.isEmpty_iff.2 hempty] at hne
      cases hne
    · obtain ⟨content, hcontent⟩ := Named.mem_iff.1 hmem
      obtain ⟨hsource, hfile⟩ := (getElem?_files_iff ht hload).1 hcontent
      have hthere := MemoryTree.mem_files_iff.2 ⟨content, hfile⟩
      exact ⟨(ht _ (by simp) (.inr hthere)).1 name (by simp), hsource⟩
  · rintro ⟨hne, hnames⟩
    have hnodup := Named.nodup_map_fst_toList files
    have hplace : (Package.place p).IsCanonical := Path.isCanonical_of_read? (read?_packageDir hp)
    have hentry : ∀ {name content}, (name, content) ∈ files.toList ↔ files[name]? = some content :=
      Std.ExtTreeMap.mem_toList_iff_getElem?_eq_some
    have ht : (MemoryTree.holding (Package.place p) files.toList).IsClosed :=
      MemoryTree.isClosed_holding hplace hnodup fun file hfile =>
        (hnames file.1 (Named.mem_of_getElem? (hentry.1 hfile))).1
    have hholds : (MemoryTree.holding (Package.place p) files.toList).HoldsSources ext
        (Package.place p) := by
      obtain ⟨name, hmem⟩ : ∃ name, name ∈ files := by
        by_contra hnone
        exact hne (Std.ExtTreeMap.eq_empty_iff_forall_not_mem.2 (not_exists.1 hnone))
      obtain ⟨content, hcontent⟩ := Named.mem_iff.1 hmem
      exact ⟨name, (hnames name hmem).2, MemoryTree.mem_files_iff.2
        ⟨content, (MemoryTree.getElem?_holding hnodup).2 ⟨name, hentry.2 hcontent, rfl⟩⟩⟩
    obtain ⟨package, hload⟩ := (load_view_of_dir ext ht hp (hholds.kind_eq_dir ht)).1 hholds
    refine ⟨_, package, ht, hload, Named.ext fun name content => ?_⟩
    rw [getElem?_files_iff ht hload, MemoryTree.getElem?_holding hnodup]
    constructor
    · rintro ⟨-, name', hmem, he⟩
      obtain rfl : name = name' := by simpa using he
      exact hentry.1 hmem
    · intro hcontent
      exact ⟨(hnames name (Named.mem_of_getElem? hcontent)).2, name, hentry.2 hcontent, rfl⟩

end Package

namespace Workspace

variable {root : MemoryTree}

/-- How a package is read from the sources of a session: from the session if it has a directory
there, with or without source files; not at all if it has a file there; and from the library
otherwise. -/
theorem load_stacked_cases (ext : String) (hroot : root.IsClosed) (ht : t.IsClosed)
    (hp : Package.isImportPath p = true) :
    (∃ package, t.HoldsSources ext (Package.place p) ∧
      Package.load (stacked t root) ext p = .ok package ∧
      ∀ i, i ∈ package.imports ↔ t.ImportsAt ext (Package.place p) i) ∨
    (t.kind (Package.place p) = some .dir ∧ ¬ t.HoldsSources ext (Package.place p) ∧
      Package.load (stacked t root) ext p = .error (.noSourceFiles p)) ∨
    (∃ e, ¬ t.HoldsSources ext (Package.place p) ∧
      Package.load (stacked t root) ext p = .error (.tree e)) ∨
    (¬ t.HoldsSources ext (Package.place p) ∧
      Package.load (stacked t root) ext p = Package.load root.view ext p) := by
  cases hkind : t.kind (Package.place p) with
  | none =>
    refine .inr (.inr (.inr ⟨fun h => ?_, load_stacked_of_none hroot ht hp hkind⟩))
    rw [h.kind_eq_dir ht] at hkind
    cases hkind
  | some kind =>
    cases kind with
    | file =>
      refine .inr (.inr (.inl ⟨_, fun h => ?_, load_stacked_of_file hp hkind⟩))
      rw [h.kind_eq_dir ht] at hkind
      cases hkind
    | dir =>
      have hload : Package.load (stacked t root) ext p = Package.load t.view ext p :=
        load_stacked_of_dir ht hp hkind
      obtain ⟨hsome, hnone⟩ := Package.load_view_of_dir ext ht hp hkind
      by_cases hholds : t.HoldsSources ext (Package.place p)
      · obtain ⟨package, hpackage⟩ := hsome hholds
        exact .inl ⟨package, hholds, hload.trans hpackage,
          fun i => Package.mem_imports_iff ht hpackage⟩
      · exact .inr (.inl ⟨rfl, hholds, hload.trans (hnone hholds)⟩)

end Workspace

end Playground
