import Playground.Fetch.Host
import Playground.Package

/-!
# Resolving imports

Before a build, everything that a program imports is brought into the sources of the session.
Packages that are there, or in the library, are used as they are; any other package is fetched
and stored, and then its own imports are resolved.  Packages of the library are taken to import
each other only.

A resolver considers an import path once, whatever comes of it.  Imports are followed depth first.
The work ends because a host serves finitely many packages and the sources of a session, as they
are between two fetches, import finitely many paths.
-/

namespace Playground

/-- The extension of source files. -/
def sourceExt : String := "go"

/-- What a resolver reports. -/
inductive FetchEvent where
  | started (importPath : String)
  | finished (importPath : String)
  deriving DecidableEq, Repr

/-- The state of a resolver. -/
structure Resolver (η : Type) where
  workspace : Workspace
  /-- The state of the host. -/
  host : η
  /-- The import paths that were considered, newest first. -/
  seen : List String
  /-- What was reported, in order. -/
  events : List FetchEvent

namespace Resolver

/-! ### One package -/

/-- The contents of some files of a directory. -/
def readAll (sources : View) (dir : String) : List String → Except TreeError (List ByteArray)
  | [] => .ok []
  | name :: names => do
    let content ← sources.readAt (Path.join dir name)
    return content :: (← readAll sources dir names)

/-- The imports that some source files name. -/
def importsOf (contents : List ByteArray) : List String :=
  Source.mergeImports (contents.map fun content => (Bytes.Utf8.decodeOrEmpty content).toList)

/-- The imports of a package in a tree. -/
def importsIn (sources : View) (importPath : String) : Except TreeError (List String) := do
  let dir := packageDir importPath
  let found ← sources.listAt dir
  let names := (found.filter (Entry.isSource sourceExt)).map Entry.name
  return importsOf (← readAll sources dir names)

/-- Where a package stands before it is fetched. -/
inductive Standing where
  /-- It is in the sources of the session. -/
  | present
  /-- It is in the library. -/
  | library
  | absent
  deriving DecidableEq, Repr

/-- Where a package stands in a workspace. -/
def standing (w : Workspace) (importPath : String) : Standing :=
  if hasSources w.path.view sourceExt importPath then .present
  else if hasSources w.root.view sourceExt importPath then .library
  else .absent

variable {η : Type}

def report (r : Resolver η) (e : FetchEvent) : Resolver η := { r with events := r.events ++ [e] }

/-- Stores a package that was fetched; its imports. -/
def store (r : Resolver η) (importPath : String) (files : SourceTree) :
    Except FetchError (List String) × Resolver η :=
  let sources := files.toList.filter fun (name, _) => isSourceFile name sourceExt
  if sources = [] then (.error (.notFound importPath), r)
  else
    match r.workspace.addPackage importPath files.toList with
    | (workspace, .error e) => (.error (.tree e), { r with workspace })
    | (workspace, .ok ()) =>
      (.ok (importsOf (sources.map (·.2))), { r with workspace }.report (.finished importPath))

/-- Fetches a package into the sources of the session; its imports. -/
def fetch (host : Host η) (policy : FetchPolicy) (r : Resolver η) (importPath : String) :
    Except FetchError (List String) × Resolver η :=
  match policy.check importPath with
  | .error e => (.error e, r)
  | .ok () =>
    let r := r.report (.started importPath)
    match host.fetch importPath r.host with
    | (.error e, state) => (.error e, { r with host := state })
    | (.ok files, state) => { r with host := state }.store importPath files

/-! ### Why resolving ends -/

theorem readAll_eq_of_read? {sources : View} {dir dir' : String}
    (h : Path.read? dir = Path.read? dir') {names : List String}
    {contents contents' : List ByteArray}
    (hc : readAll sources dir names = .ok contents)
    (hc' : readAll sources dir' names = .ok contents') : contents = contents' := by
  induction names generalizing contents contents' with
  | nil =>
    cases hc
    cases hc'
    rfl
  | cons name names ih =>
    have hread : Path.read? (Path.join dir name) = Path.read? (Path.join dir' name) := by
      rw [Path.read?_join, Path.read?_join, h]
    simp only [readAll, View.readAt, View.locate] at hc hc'
    rw [← hread] at hc'
    cases hp : Path.read? (Path.join dir name) with
    | none => simp [hp, bind, Except.bind] at hc
    | some p =>
      simp only [hp, bind, Except.bind, pure, Except.pure] at hc hc'
      cases hr : sources.read p with
      | error e => simp [hr] at hc
      | ok content =>
        simp only [hr] at hc hc'
        cases h1 : readAll sources dir names with
        | error e => simp [h1] at hc
        | ok rest =>
          cases h2 : readAll sources dir' names with
          | error e => simp [h2] at hc'
          | ok rest' =>
            simp only [h1, Except.ok.injEq] at hc
            simp only [h2, Except.ok.injEq] at hc'
            rw [← hc, ← hc', ih h1 h2]

theorem importsIn_eq_of_read? {sources : View} {p q : String}
    (h : Path.read? (packageDir p) = Path.read? (packageDir q)) {is js : List String}
    (hp : importsIn sources p = .ok is) (hq : importsIn sources q = .ok js) : is = js := by
  simp only [importsIn, View.listAt, View.locate] at hp hq
  rw [← h] at hq
  cases hr : Path.read? (packageDir p) with
  | none => simp [hr, bind, Except.bind] at hp
  | some place =>
    simp only [hr, bind, Except.bind, pure, Except.pure] at hp hq
    cases hl : sources.list place with
    | error e => simp [hl] at hp
    | ok found =>
      simp only [hl] at hp hq
      cases h1 : readAll sources (packageDir p)
          ((found.filter (Entry.isSource sourceExt)).map Entry.name) with
      | error e => simp [h1] at hp
      | ok contents =>
        cases h2 : readAll sources (packageDir q)
            ((found.filter (Entry.isSource sourceExt)).map Entry.name) with
        | error e => simp [h2] at hq
        | ok contents' =>
          simp only [h1, Except.ok.injEq] at hp
          simp only [h2, Except.ok.injEq] at hq
          rw [← hp, ← hq, readAll_eq_of_read? h h1 h2]

theorem exists_place_of_importsIn {sources : View} {p : String} {is : List String}
    (h : importsIn sources p = .ok is) :
    ∃ place, Path.read? (packageDir p) = some place ∧ (sources.list place).isOk = true := by
  simp only [importsIn, View.listAt, View.locate] at h
  cases hr : Path.read? (packageDir p) with
  | none => simp [hr, bind, Except.bind] at h
  | some place =>
    refine ⟨place, rfl, ?_⟩
    simp only [hr, bind, Except.bind] at h
    cases hl : sources.list place with
    | error e => simp [hl] at h
    | ok found => rfl

/-- The packages of a tree import finitely many paths. -/
theorem exists_imports (sources : View) :
    ∃ paths : List String, ∀ p is, importsIn sources p = .ok is → ∀ i ∈ is, i ∈ paths := by
  obtain ⟨places, hplaces⟩ := sources.exists_places
  have collect : ∀ some_places : List Path, ∃ paths : List String, ∀ p is,
      importsIn sources p = .ok is →
        (∃ place ∈ some_places, Path.read? (packageDir p) = some place) → ∀ i ∈ is, i ∈ paths := by
    intro some_places
    induction some_places with
    | nil => exact ⟨[], fun _ _ _ ⟨_, hmem, _⟩ => absurd hmem (by simp)⟩
    | cons place rest ih =>
      obtain ⟨paths, hpaths⟩ := ih
      by_cases hex : ∃ q js, importsIn sources q = .ok js ∧ Path.read? (packageDir q) = some place
      · obtain ⟨q, js, hq, hqp⟩ := hex
        refine ⟨js ++ paths, fun p is hp ⟨place', hmem, hpp⟩ i hi => ?_⟩
        rcases List.mem_cons.1 hmem with rfl | hmem
        · have := importsIn_eq_of_read? (hpp.trans hqp.symm) hp hq
          exact List.mem_append_left _ (this ▸ hi)
        · exact List.mem_append_right _ (hpaths p is hp ⟨place', hmem, hpp⟩ i hi)
      · refine ⟨paths, fun p is hp ⟨place', hmem, hpp⟩ i hi => ?_⟩
        rcases List.mem_cons.1 hmem with rfl | hmem
        · exact absurd ⟨p, is, hp, hpp⟩ hex
        · exact hpaths p is hp ⟨place', hmem, hpp⟩ i hi
  obtain ⟨paths, hpaths⟩ := collect places
  refine ⟨paths, fun p is hp i hi => ?_⟩
  obtain ⟨place, hr, hok⟩ := exists_place_of_importsIn hp
  exact hpaths p is hp ⟨place, hplaces place hok, hr⟩ i hi

/-- The paths that the packages of a tree import. -/
noncomputable def importable (sources : View) : List String :=
  Classical.choose (exists_imports sources)

theorem mem_importable {sources : View} {p : String} {is : List String}
    (h : importsIn sources p = .ok is) {i : String} (hi : i ∈ is) : i ∈ importable sources :=
  Classical.choose_spec (exists_imports sources) p is h i hi

theorem nodup_eraseDups (l : List String) : l.eraseDups.Nodup := by
  match l with
  | [] => simp
  | x :: l =>
    rw [List.eraseDups_cons]
    refine List.nodup_cons.2 ⟨by simp [List.mem_eraseDups], ?_⟩
    exact nodup_eraseDups _
  termination_by l.length
  decreasing_by exact Nat.lt_succ_of_le (List.length_filter_le _ l)

/-- The number of different paths of a list that were not seen. -/
def unseen (seen paths : List String) : Nat := (paths.filter (· ∉ seen)).eraseDups.length

theorem mem_eraseDups_filter {seen paths : List String} {x : String} :
    x ∈ (paths.filter (· ∉ seen)).eraseDups ↔ x ∈ paths ∧ x ∉ seen := by
  simp [List.mem_eraseDups]

theorem unseen_le {seen seen' paths paths' : List String}
    (h : ∀ x ∈ paths', x ∉ seen' → x ∈ paths ∧ x ∉ seen) :
    unseen seen' paths' ≤ unseen seen paths :=
  View.length_le_of_subset (nodup_eraseDups _) fun x hx => by
    have := mem_eraseDups_filter.1 hx
    exact mem_eraseDups_filter.2 (h x this.1 this.2)

theorem unseen_lt {seen seen' paths paths' : List String}
    (h : ∀ x ∈ paths', x ∉ seen' → x ∈ paths ∧ x ∉ seen) {p : String} (hp : p ∈ paths)
    (hps : p ∉ seen) (hps' : p ∈ seen') : unseen seen' paths' < unseen seen paths := by
  have := View.length_le_of_subset (l := p :: (paths'.filter (· ∉ seen')).eraseDups)
    (m := (paths.filter (· ∉ seen)).eraseDups)
    (List.nodup_cons.2 ⟨fun hm => (mem_eraseDups_filter.1 hm).2 hps', nodup_eraseDups _⟩) ?_
  · exact Nat.lt_of_succ_le (by simpa [unseen] using this)
  · intro x hx
    rcases List.mem_cons.1 hx with rfl | hx
    · exact mem_eraseDups_filter.2 ⟨hp, hps⟩
    · have := mem_eraseDups_filter.1 hx
      exact mem_eraseDups_filter.2 (h x this.1 this.2)

theorem seen_store (r : Resolver η) (importPath : String) (files : SourceTree) :
    (r.store importPath files).2.seen = r.seen := by
  unfold store
  dsimp only
  split
  · rfl
  · split <;> rfl

theorem seen_fetch (host : Host η) (policy : FetchPolicy) (r : Resolver η) (importPath : String) :
    (r.fetch host policy importPath).2.seen = r.seen := by
  unfold fetch
  split
  · rfl
  · dsimp only
    split
    · rfl
    · rw [seen_store]
      rfl

theorem mem_served_of_fetch {host : Host η} {policy : FetchPolicy} {r r' : Resolver η}
    {importPath : String} {is : List String} (h : r.fetch host policy importPath = (.ok is, r')) :
    importPath ∈ host.served := by
  unfold fetch at h
  split at h
  · cases h
  · dsimp only at h
    split at h
    · cases h
    · rename_i files state hf
      refine host.mem_served importPath (r.report (.started importPath)).host ?_
      rw [hf]
      rfl

/-! ### All packages -/

/-- Those of some imports that were not considered yet. -/
def newImports (r : Resolver η) (imports : List String) : List String :=
  imports.filter (· ∉ r.seen)

set_option linter.unusedVariables false in
/-- Resolves the packages that are pending, the first of them first. -/
def run (host : Host η) (policy : FetchPolicy) (r : Resolver η) (pending : List String) :
    Except FetchError Unit × Resolver η :=
  match pending with
  | [] => (.ok (), r)
  | path :: pending =>
    if hseen : path ∈ r.seen then run host policy r pending
    else
      let next := { r with seen := path :: r.seen }
      match standing r.workspace path with
      | .present =>
        match hi : importsIn r.workspace.path.view path with
        | .error e => (.error (.tree e), next)
        | .ok imports => run host policy next (next.newImports imports ++ pending)
      | .library => run host policy next pending
      | .absent =>
        match hf : next.fetch host policy path with
        | (.error e, fetched) => (.error e, fetched)
        | (.ok imports, fetched) => run host policy fetched (fetched.newImports imports ++ pending)
  termination_by
    (unseen r.seen host.served, unseen r.seen (importable r.workspace.path.view ++ pending),
      pending.length)
  decreasing_by
    · refine Prod.Lex.right _ ?_
      have hle : unseen r.seen (importable r.workspace.path.view ++ pending) ≤
          unseen r.seen (importable r.workspace.path.view ++ path :: pending) :=
        unseen_le fun x hx hn => ⟨by
          rcases List.mem_append.1 hx with h | h
          · exact List.mem_append_left _ h
          · exact List.mem_append_right _ (List.mem_cons_of_mem _ h), hn⟩
      rcases Nat.lt_or_eq_of_le hle with h | h
      · exact Prod.Lex.left _ _ h
      · rw [h]
        exact Prod.Lex.right _ (by simp)
    · have hle : unseen (path :: r.seen) host.served ≤ unseen r.seen host.served :=
        unseen_le fun x hx hn => ⟨hx, fun h => hn (List.mem_cons_of_mem _ h)⟩
      have hlt : unseen (path :: r.seen)
            (importable r.workspace.path.view ++ (next.newImports imports ++ pending)) <
          unseen r.seen (importable r.workspace.path.view ++ path :: pending) :=
        unseen_lt (p := path) (fun x hx hn => ⟨by
          rcases List.mem_append.1 hx with h | h
          · exact List.mem_append_left _ h
          · rcases List.mem_append.1 h with h | h
            · exact List.mem_append_left _ (mem_importable hi (List.mem_filter.1 h).1)
            · exact List.mem_append_right _ (List.mem_cons_of_mem _ h),
          fun h => hn (List.mem_cons_of_mem _ h)⟩) (by simp) hseen (by simp)
      rcases Nat.lt_or_eq_of_le hle with h | h
      · exact Prod.Lex.left _ _ h
      · rw [h]
        exact Prod.Lex.right _ (Prod.Lex.left _ _ hlt)
    · have hle : unseen (path :: r.seen) host.served ≤ unseen r.seen host.served :=
        unseen_le fun x hx hn => ⟨hx, fun h => hn (List.mem_cons_of_mem _ h)⟩
      have hlt : unseen (path :: r.seen) (importable r.workspace.path.view ++ pending) <
          unseen r.seen (importable r.workspace.path.view ++ path :: pending) :=
        unseen_lt (p := path) (fun x hx hn => ⟨by
          rcases List.mem_append.1 hx with h | h
          · exact List.mem_append_left _ h
          · exact List.mem_append_right _ (List.mem_cons_of_mem _ h),
          fun h => hn (List.mem_cons_of_mem _ h)⟩) (by simp) hseen (by simp)
      rcases Nat.lt_or_eq_of_le hle with h | h
      · exact Prod.Lex.left _ _ h
      · rw [h]
        exact Prod.Lex.right _ (Prod.Lex.left _ _ hlt)
    · have hs : fetched.seen = path :: r.seen := by
        have := seen_fetch host policy next path
        rw [hf] at this
        exact this
      refine Prod.Lex.left _ _ ?_
      rw [hs]
      exact unseen_lt (p := path) (fun x hx hn => ⟨hx, fun h => hn (List.mem_cons_of_mem _ h)⟩)
        (mem_served_of_fetch hf) hseen (by simp)

/-- Makes a package and everything it imports available. -/
def resolve (host : Host η) (policy : FetchPolicy) (r : Resolver η) (importPath : String) :
    Except FetchError Unit × Resolver η :=
  r.run host policy [importPath]

end Resolver

end Playground
