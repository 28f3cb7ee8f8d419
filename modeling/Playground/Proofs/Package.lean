import Playground.Package

/-!
# What it means that a package was read

`Package.of_load` says all that a read which did not fail has seen.  A package is settled by its
path and its files, and different packages lie in different directories that can be listed.
-/

namespace Playground.Package

variable {sources sources' : View} {ext path path' : String} {package package' : Package}

/-- A package that was read has an import path, a directory that can be listed, and files in it that
can be read; its imports are those of the files. -/
theorem of_load (h : load sources ext path = .ok package) :
    isImportPath path = true ∧ ∃ found files, sources.listAt (packageDir path) = .ok found ∧
      readFiles sources (packageDir path) ((found.filter (Entry.isSource ext)).map Entry.name) =
        .ok files ∧
      files.isEmpty = false ∧ package = ⟨path, files, importsOf files⟩ := by
  unfold load at h
  split at h
  · cases h
  · rename_i hp
    rw [Bool.not_eq_true', Bool.not_eq_false] at hp
    dsimp only at h
    split at h
    · cases h
    · rename_i found hfound
      split at h
      · cases h
      · rename_i files hfiles
        split at h
        · cases h
        · rename_i hne
          rw [Bool.not_eq_true] at hne
          cases h
          exact ⟨hp, found, files, hfound, hfiles, hne, rfl⟩

theorem load_importPath (h : load sources ext path = .ok package) : package.importPath = path := by
  obtain ⟨-, found, files, -, -, -, rfl⟩ := of_load h
  rfl

/-- A package is settled by its import path and its files, whatever tree it was read from. -/
theorem eq_of_load (h : load sources ext path = .ok package)
    (h' : load sources' ext path = .ok package') (hfiles : package.files = package'.files) :
    package = package' := by
  obtain ⟨-, found, files, -, -, -, rfl⟩ := of_load h
  obtain ⟨-, found', files', -, -, -, rfl⟩ := of_load h'
  cases hfiles
  rfl

theorem eq_of_load_error {e : LoadError} {missing : String} (h : load sources ext path = .error e)
    (he : e = .notFound missing ∨ e = .noSourceFiles missing) : missing = path := by
  -- all other errors are neither of the two
  have hother : e = .notFound path ∨ e = .noSourceFiles path := by
    unfold load at h
    split at h
    · cases h
      exact he.elim nofun nofun
    · dsimp only at h
      split at h
      · split at h
        · exact .inl (Except.error.inj h).symm
        · cases h
          exact he.elim nofun nofun
      · split at h
        · cases h
          exact he.elim nofun nofun
        · split at h
          · exact .inr (Except.error.inj h).symm
          · cases h
  rcases he with rfl | rfl
  · exact LoadError.notFound.inj (hother.resolve_right nofun)
  · exact LoadError.noSourceFiles.inj (hother.resolve_left nofun)

/-! ### Where packages lie -/

theorem read?_of_load (h : load sources ext path = .ok package) :
    ∃ place : Path, Path.read? path = some place ∧ place.text = path := by
  have hp := (of_load h).1
  rw [isImportPath, Bool.and_eq_true, beq_iff_eq, Path.canonical?] at hp
  exact Option.map_eq_some_iff.1 hp.1

theorem isImportPath_iff : isImportPath path = true ↔
    path ≠ "" ∧ ∃ place : Path, Path.read? path = some place ∧ place.text = path := by
  rw [isImportPath, Bool.and_eq_true, beq_iff_eq, Path.canonical?, Option.map_eq_some_iff,
    decide_eq_true_eq, and_comm]

theorem load_of_not_isImportPath (h : ¬ isImportPath path = true) :
    load sources ext path = .error (.invalidImportPath path) := by
  rw [load, if_pos (by simpa using h)]

def place (path : String) : Path := sourceDir :: (Path.read? path).getD []

theorem read?_packageDir_eq (path : String) :
    Path.read? (packageDir path) = (Path.read? path).map (sourceDir :: ·) := by
  have hsrc : Path.read? sourceDir = some [sourceDir] := by decide
  rw [packageDir, Path.read?_join, hsrc]
  rfl

theorem read?_packageDir (h : isImportPath path = true) :
    Path.read? (packageDir path) = some (place path) := by
  obtain ⟨-, q, hq, -⟩ := isImportPath_iff.1 h
  rw [read?_packageDir_eq, place, hq]
  rfl

theorem place_ne (h : isImportPath path = true) (h' : isImportPath path' = true)
    (hne : path ≠ path') : place path ≠ place path' := by
  obtain ⟨-, q, hq, ht⟩ := isImportPath_iff.1 h
  obtain ⟨-, q', hq', ht'⟩ := isImportPath_iff.1 h'
  rw [place, place, hq, hq', Option.getD_some, Option.getD_some]
  intro he
  exact hne (by rw [← ht, ← ht', (List.cons.inj he).2])

theorem place_inj (h : load sources ext path = .ok package)
    (h' : load sources ext path' = .ok package') (he : place path = place path') :
    path = path' := by
  obtain ⟨q, hq, ht⟩ := read?_of_load h
  obtain ⟨q', hq', ht'⟩ := read?_of_load h'
  rw [place, place, hq, hq', Option.getD_some, Option.getD_some] at he
  rw [← ht, ← ht', (List.cons.inj he).2]

theorem list_place (h : load sources ext path = .ok package) :
    (sources.list (place path)).isOk = true := by
  obtain ⟨hp, found, -, hfound, -⟩ := of_load h
  have hdir : View.locate (packageDir path) = .ok (place path) := by
    rw [View.locate, read?_packageDir hp]
  have hlist : sources.listAt (packageDir path) = sources.list (place path) := by
    rw [View.listAt, hdir]
    rfl
  rw [← hlist, hfound]
  rfl

/-! ### What a read depends on -/

/-- The names of the source files in the directory of a package, in the order of its listing. -/
def sourceNames (sources : View) (ext path : String) : Except TreeError (List String) :=
  (sources.listAt (packageDir path)).map fun found =>
    (found.filter (Entry.isSource ext)).map Entry.name

theorem load_eq (hp : isImportPath path = true) : load sources ext path =
    match sourceNames sources ext path with
    | .error e => .error (if e.isNotFound then .notFound path else .tree e)
    | .ok names =>
      match readFiles sources (packageDir path) names with
      | .error e => .error (.tree e)
      | .ok files =>
        if files.isEmpty then .error (.noSourceFiles path)
        else .ok ⟨path, files, importsOf files⟩ := by
  unfold load sourceNames
  rw [hp, Bool.not_true, if_neg Bool.false_ne_true]
  dsimp only
  cases sources.listAt (packageDir path) <;> rfl

/-- Paths are refused for what they are written like exactly when they are no import paths. -/
theorem load_ne_invalidImportPath_iff :
    load sources ext path ≠ .error (.invalidImportPath path) ↔ isImportPath path = true := by
  constructor
  · exact fun h => Decidable.by_contra fun hp => h (load_of_not_isImportPath hp)
  · intro hp
    rw [load_eq hp]
    split
    · split <;> nofun
    · split
      · nofun
      · split <;> nofun

theorem readFiles_congr {dir : String} {names : List String}
    (h : ∀ name ∈ names,
      sources.readAt (Path.join dir name) = sources'.readAt (Path.join dir name)) :
    readFiles sources dir names = readFiles sources' dir names := by
  induction names with
  | nil => rfl
  | cons name names ih =>
    rw [readFiles, readFiles, h name List.mem_cons_self,
      ih fun name hname => h name (List.mem_cons_of_mem _ hname)]

theorem load_congr (hnames : sourceNames sources ext path = sourceNames sources' ext path)
    (hread : ∀ names, sourceNames sources ext path = .ok names → ∀ name ∈ names,
      sources.readAt (Path.join (packageDir path) name) =
        sources'.readAt (Path.join (packageDir path) name)) :
    load sources ext path = load sources' ext path := by
  by_cases hp : isImportPath path = true
  · rw [load_eq hp, load_eq hp, ← hnames]
    cases h : sourceNames sources ext path with
    | error e => rfl
    | ok names => simp only [readFiles_congr (hread names h)]
  · rw [load, load, if_pos (by simpa using hp), if_pos (by simpa using hp)]

end Playground.Package
