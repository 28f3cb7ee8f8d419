import Playground.Proofs.Build.Refinement
import Playground.Proofs.Fetch.Reports
import Playground.Proofs.Fetch.Stored

/-!
# Sources that are ready for a build

A resolver looks packages up in the session and then in the library, and follows what those of the
session import.  A build reads the sources of the session stacked over the library, and follows all
imports.  What a resolver considered is settled (`Resolver.Settled`): it has source files in the
session, which import only what is considered too, or else in the library.  So when a library
imports nothing but itself, a build can find everything after a resolver has ended, apart from what
is below a package of the library that the session replaces and the resolver never came to, and
apart from packages of the library that a directory of the session hides
(`Resolver.discover_of_resolve`).
-/

namespace Playground

open Relation Workspace

variable {η : Type} {host : Host η} {policy : FetchPolicy} {r r' : Resolver η}
  {root t₀ t t' temporary : MemoryTree} {place : Path} {p q path ext : String}
  {seen pending pending' imports : List String}

/-- All that the packages of some sources import has source files there. -/
def View.IsSelfContained (sources : View) (ext : String) : Prop :=
  ∀ p i, Imports sources ext p i → hasSources sources ext i = true

theorem MemoryTree.isSelfContained_view (ht : t.IsClosed)
    (h : ∀ file ∈ t.files.toList, ∀ i ∈ Source.importPaths (Bytes.Utf8.decodeOrEmpty file.2).toList,
      Source.namesPackage i = true → hasSources t.view ext i = true) :
    t.view.IsSelfContained ext := by
  rintro p i ⟨package, hload, hi⟩
  obtain ⟨name, content, -, hcontent, himports, hnames⟩ := (Package.mem_imports_iff ht hload).1 hi
  have hfile := Std.ExtTreeMap.mem_toList_iff_getElem?_eq_some.2 hcontent
  exact h _ hfile i himports hnames

/-- A directory of the session without source files stands where the library has a package. -/
def Workspace.Hides (w : Workspace) (path : String) : Prop :=
  w.path.view.kind (Package.place path) = some .dir ∧
    hasSources w.path.view sourceExt path = false ∧ hasSources w.root.view sourceExt path = true

/-- A package of the session stands in the place of one of the library, and is none of those that
were considered. -/
def Workspace.Overlooks (w : Workspace) (seen : List String) (path : String) : Prop :=
  path ∉ seen ∧ hasSources w.path.view sourceExt path = true ∧
    hasSources w.root.view sourceExt path = true

namespace Resolver

/-! ### Between two packages -/

/-- The package at a place was dealt with: it has source files in the session, which import only
what is considered, or else in the library. -/
def IsReady (root t : MemoryTree) (considered : String → Prop) (place : Path) : Prop :=
  t.HoldsSources sourceExt place ∧ (∀ i, t.ImportsAt sourceExt place i → considered i) ∨
    ¬ t.HoldsSources sourceExt place ∧ root.HoldsSources sourceExt place

theorem IsReady.mono {considered considered' : String → Prop}
    (h : IsReady root t considered place) (hmore : ∀ i, considered i → considered' i) :
    IsReady root t considered' place :=
  h.imp_left fun ⟨hholds, himports⟩ => ⟨hholds, fun i hi => hmore i (himports i hi)⟩

theorem exists_isReady_of_present {considered : String → Prop} (ht : t.IsClosed)
    (hsession : hasSources t.view sourceExt path = true)
    (hi : importsIn t.view path = .ok imports) (hall : ∀ i ∈ imports, considered i) :
    ∃ place, Path.read? (packageDir path) = some place ∧ IsReady root t considered place := by
  obtain ⟨place, hplace⟩ := exists_place_of_hasSources hsession
  refine ⟨place, hplace, .inl ⟨(hasSources_view_iff ht hplace).1 hsession, fun i himports => ?_⟩⟩
  exact hall i ((mem_importsIn_iff ht hplace hi).2 himports)

theorem exists_isReady_of_library {considered : String → Prop} (hroot : root.IsClosed)
    (ht : t.IsClosed) (hsession : hasSources t.view sourceExt path = false)
    (hlibrary : hasSources root.view sourceExt path = true) :
    ∃ place, Path.read? (packageDir path) = some place ∧ IsReady root t considered place := by
  obtain ⟨place, hplace⟩ := exists_place_of_hasSources hlibrary
  exact ⟨place, hplace, .inr ⟨(hasSources_view_eq_false_iff ht hplace).1 hsession,
    (hasSources_view_iff hroot hplace).1 hlibrary⟩⟩

/-- What holds of the sources `t` of a session that were `t₀` in the beginning: all packages seen
are ready, up to what is pending, and a package that stands in the place of one of the library was
there from the start. -/
structure Settled (t₀ root t : MemoryTree) (seen pending : List String) : Prop where
  closed : t.IsClosed
  ready : ∀ p ∈ seen, ∃ place, Path.read? (packageDir p) = some place ∧
    IsReady root t (fun i => i ∈ seen ∨ i ∈ pending) place
  kept : ∀ place, root.HoldsSources sourceExt place → t.HoldsSources sourceExt place →
    t₀.HoldsSources sourceExt place

theorem Settled.start (ht : t.IsClosed) : Settled t root t [] pending where
  closed := ht
  ready _ h := absurd h List.not_mem_nil
  kept _ _ h := h

theorem considered_of_skip (hpath : path ∈ seen) (h : p ∈ seen ∨ p ∈ path :: pending) :
    p ∈ seen ∨ p ∈ pending := by
  rcases h with h | h
  · exact .inl h
  · rcases List.mem_cons.1 h with rfl | h
    · exact .inl hpath
    · exact .inr h

theorem considered_of_see (hmore : ∀ i ∈ pending, i ∈ pending')
    (h : p ∈ seen ∨ p ∈ path :: pending) : p ∈ path :: seen ∨ p ∈ pending' := by
  rcases h with h | h
  · exact .inl (List.mem_cons_of_mem _ h)
  · rcases List.mem_cons.1 h with rfl | h
    · exact .inl List.mem_cons_self
    · exact .inr (hmore p h)

theorem Settled.skip (h : Settled t₀ root t seen (path :: pending)) (hpath : path ∈ seen) :
    Settled t₀ root t seen pending where
  closed := h.closed
  ready p hp := by
    obtain ⟨place, hplace, hready⟩ := h.ready p hp
    exact ⟨place, hplace, hready.mono fun i => considered_of_skip hpath⟩
  kept := h.kept

theorem Settled.see (h : Settled t₀ root t seen (path :: pending))
    (hmore : ∀ i ∈ pending, i ∈ pending') (hplace : Path.read? (packageDir path) = some place)
    (hready : IsReady root t (fun i => i ∈ path :: seen ∨ i ∈ pending') place) :
    Settled t₀ root t (path :: seen) pending' where
  closed := h.closed
  ready p hp := by
    rcases List.mem_cons.1 hp with rfl | hp
    · exact ⟨place, hplace, hready⟩
    · obtain ⟨place', hplace', hready'⟩ := h.ready p hp
      exact ⟨place', hplace', hready'.mono fun i => considered_of_see hmore⟩
  kept := h.kept

theorem Stored.holdsSources_iff {place' : Path} (h : Stored place imports t t')
    (hne : place' ≠ place) :
    t'.HoldsSources sourceExt place' ↔ t.HoldsSources sourceExt place' := by
  simp only [MemoryTree.HoldsSources, MemoryTree.mem_files_iff, h.other place' hne]

theorem Stored.importsAt_iff {place' : Path} {i : String} (h : Stored place imports t t')
    (hne : place' ≠ place) :
    t'.ImportsAt sourceExt place' i ↔ t.ImportsAt sourceExt place' i := by
  simp only [MemoryTree.ImportsAt, h.other place' hne]

/-- Storing a package where neither the session nor the library has one leaves the others as they
are. -/
theorem Settled.store (h : Settled t₀ root t seen pending) (hstored : Stored place imports t t')
    (hsession : ¬ t.HoldsSources sourceExt place) (hlibrary : ¬ root.HoldsSources sourceExt place) :
    Settled t₀ root t' seen pending where
  closed := hstored.closed
  ready p hp := by
    obtain ⟨place', hplace', hready⟩ := h.ready p hp
    have hne : place' ≠ place := by
      rintro rfl
      rcases hready with ⟨hholds, -⟩ | ⟨-, hholds⟩
      · exact hsession hholds
      · exact hlibrary hholds
    refine ⟨place', hplace', ?_⟩
    simpa only [IsReady, hstored.holdsSources_iff hne, hstored.importsAt_iff hne] using hready
  kept place' hroot hholds := by
    have hne : place' ≠ place := by
      rintro rfl
      exact hlibrary hroot
    exact h.kept place' hroot ((hstored.holdsSources_iff hne).1 hholds)

/-! ### A whole run -/

/-- Where a package stands is settled by which trees have source files for it. -/
theorem standing_spec (w : Workspace) (path : String) :
    match standing w path with
    | .present => hasSources w.path.view sourceExt path = true
    | .library => hasSources w.path.view sourceExt path = false ∧
        hasSources w.root.view sourceExt path = true
    | .absent => hasSources w.path.view sourceExt path = false ∧
        hasSources w.root.view sourceExt path = false := by
  unfold standing
  cases hsession : hasSources w.path.view sourceExt path
  · cases hlibrary : hasSources w.root.view sourceExt path
    · exact ⟨rfl, rfl⟩
    · exact ⟨rfl, rfl⟩
  · rfl

theorem mem_seen_or_newImports (r : Resolver η) (pending : List String) {i : String}
    (h : i ∈ imports) : i ∈ r.seen ∨ i ∈ r.newImports imports ++ pending := by
  by_cases hseen : i ∈ r.seen
  · exact .inl hseen
  · exact .inr (List.mem_append_left _ (List.mem_filter.2 ⟨h, decide_eq_true hseen⟩))

/-- A run that does not fail ends with nothing pending and everything seen. -/
theorem settled_of_run (hroot : root.IsClosed) (hhost : host.ServesNames)
    (hw : r.workspace = ⟨.memory root, .memory t, temporary⟩)
    (h : Settled t₀ root t r.seen pending) (hrun : r.run host policy pending = (.ok (), r')) :
    ∃ t', r'.workspace = ⟨.memory root, .memory t', temporary⟩ ∧
      Settled t₀ root t' r'.seen [] ∧ ∀ p, p ∈ r.seen ∨ p ∈ pending → p ∈ r'.seen := by
  revert t
  fun_induction run host policy r pending with
  | case1 r =>
    intro t hw h
    cases hrun
    exact ⟨t, hw, h, fun p hp => hp.resolve_right List.not_mem_nil⟩
  | case2 r path pending hseen ih =>
    intro t hw h
    obtain ⟨t', hw', h', hall⟩ := ih hrun hw (h.skip hseen)
    exact ⟨t', hw', h', fun p hp => hall p (considered_of_skip hseen hp)⟩
  | case3 r path pending hseen next hstanding e hi => cases hrun
  | case4 r path pending hseen next hstanding imports hi ih =>
    intro t hw h
    have hsession := standing_spec r.workspace path
    rw [hstanding, hw] at hsession
    rw [hw] at hi
    obtain ⟨place, hplace, hready⟩ := exists_isReady_of_present h.closed hsession hi
      fun i => mem_seen_or_newImports next pending
    have hmore : ∀ i ∈ pending, i ∈ next.newImports imports ++ pending :=
      fun i => List.mem_append_right _
    obtain ⟨t', hw', h', hall⟩ := ih hrun hw (h.see hmore hplace hready)
    exact ⟨t', hw', h', fun p hp => hall p (considered_of_see hmore hp)⟩
  | case5 r path pending hseen next hstanding ih =>
    intro t hw h
    have hsources := standing_spec r.workspace path
    rw [hstanding, hw] at hsources
    obtain ⟨place, hplace, hready⟩ :=
      exists_isReady_of_library hroot h.closed hsources.1 hsources.2
    have hmore : ∀ i ∈ pending, i ∈ pending := fun i hi => hi
    obtain ⟨t', hw', h', hall⟩ := ih hrun hw (h.see hmore hplace hready)
    exact ⟨t', hw', h', fun p hp => hall p (considered_of_see hmore hp)⟩
  | case6 r path pending hseen next hstanding e fetched hf => cases hrun
  | case7 r path pending hseen next hstanding imports fetched hf ih =>
    intro t hw h
    have hsources := standing_spec r.workspace path
    rw [hstanding, hw] at hsources
    have hnext : next.workspace = ⟨.memory root, .memory t, temporary⟩ := hw
    obtain ⟨place, t₁, hplace, hw₁, hstored⟩ := stored_of_fetch hhost h.closed hnext hf
    have hsession := (hasSources_view_eq_false_iff h.closed hplace).1 hsources.1
    have hlibrary := (hasSources_view_eq_false_iff hroot hplace).1 hsources.2
    have hfetched : fetched.seen = path :: r.seen := by
      have hseen := seen_fetch host policy next path
      rwa [hf] at hseen
    have hready : IsReady root t₁
        (fun i => i ∈ fetched.seen ∨ i ∈ fetched.newImports imports ++ pending) place :=
      .inl ⟨hstored.sources, fun i hi =>
        mem_seen_or_newImports fetched pending (hstored.imports hsession i hi)⟩
    have hmore : ∀ i ∈ pending, i ∈ fetched.newImports imports ++ pending :=
      fun i => List.mem_append_right _
    have h₁ := h.store hstored hsession hlibrary
    rw [hfetched] at ih hready
    obtain ⟨t', hw', h', hall⟩ := ih hrun hw₁ (h₁.see hmore hplace hready)
    exact ⟨t', hw', h', fun p hp => hall p (considered_of_see hmore hp)⟩

/-! ### What a build needs -/

/-- A package was considered, or the library has it. -/
def AccountsFor (root : MemoryTree) (seen : List String) (path : String) : Prop :=
  path ∈ seen ∨ hasSources root.view sourceExt path = true

namespace Settled

variable {e : LoadError}

theorem holdsSources_root (h : Settled t₀ root t seen []) (hroot : root.IsClosed)
    (himport : Package.isImportPath q = true) (hq : AccountsFor root seen q)
    (hnone : ¬ t.HoldsSources sourceExt (Package.place q)) :
    root.HoldsSources sourceExt (Package.place q) := by
  have hplace := Package.read?_packageDir himport
  rcases hq with hq | hq
  · obtain ⟨place, hplace', hready⟩ := h.ready q hq
    cases hplace.symm.trans hplace'
    rcases hready with ⟨hholds, -⟩ | ⟨-, hholds⟩
    · exact absurd hholds hnone
    · exact hholds
  · exact (hasSources_view_iff hroot hplace).1 hq

/-- The imports of a package that is accounted for are, too, unless it was overlooked. -/
theorem of_imports (temporary : MemoryTree) (h : Settled t₀ root t seen []) (hroot : root.IsClosed)
    (hlibrary : root.view.IsSelfContained sourceExt)
    (hp : AccountsFor root seen p) (himports : Imports (stacked t root) sourceExt p q) :
    AccountsFor root seen q ∨
      Overlooks ⟨.memory root, .memory t, temporary⟩ seen p := by
  obtain ⟨package, hload, hq⟩ := himports
  have himport := (Package.of_load hload).1
  have hplace := Package.read?_packageDir himport
  rcases load_stacked_cases sourceExt hroot h.closed himport with
    ⟨package', hholds, hload', himports⟩ | ⟨-, -, herror⟩ | ⟨e, -, herror⟩ | ⟨-, hsame⟩
  · rw [hload] at hload'
    cases hload'
    by_cases hseen : p ∈ seen
    · obtain ⟨place, hplace', hready⟩ := h.ready p hseen
      cases hplace.symm.trans hplace'
      rcases hready with ⟨-, hall⟩ | ⟨hnone, -⟩
      · exact .inl (.inl ((hall q ((himports q).1 hq)).resolve_right List.not_mem_nil))
      · exact absurd hholds hnone
    · exact .inr ⟨hseen, (hasSources_view_iff h.closed hplace).2 hholds, hp.resolve_left hseen⟩
  · rw [hload] at herror
    cases herror
  · rw [hload] at herror
    cases herror
  · rw [hload] at hsame
    exact .inl (.inr (hlibrary p q ⟨package, hsame.symm, hq⟩))

/-- All that a build needs is accounted for, or is below a package that was overlooked. -/
theorem of_needs (temporary : MemoryTree) (h : Settled t₀ root t seen []) (hroot : root.IsClosed)
    (hlibrary : root.view.IsSelfContained sourceExt) (hpath : path ∈ seen)
    (hq : Needs (stacked t root) sourceExt [path] q) :
    AccountsFor root seen q ∨
      ∃ p, Overlooks ⟨.memory root, .memory t, temporary⟩ seen p ∧
        Needs (stacked t root) sourceExt [path] p ∧
          TransGen (Imports (stacked t root) sourceExt) p q := by
  obtain ⟨start, hstart, himports⟩ := hq
  obtain rfl := List.mem_singleton.1 hstart
  induction himports with
  | refl => exact .inl (.inl hpath)
  | tail hto himports ih =>
    rcases ih with hp | ⟨p, hp, hneeds, hbelow⟩
    · rcases h.of_imports temporary hroot hlibrary hp himports with hq | hoverlooked
      · exact .inl hq
      · exact .inr ⟨_, hoverlooked, ⟨_, hstart, hto⟩, .single himports⟩
    · exact .inr ⟨p, hp, hneeds, hbelow.tail himports⟩

/-- A package that is accounted for is missing only when a directory of the session hides it. -/
theorem hides_of_load_error (temporary : MemoryTree) (h : Settled t₀ root t seen [])
    (hroot : root.IsClosed) (hq : AccountsFor root seen q)
    (hload : Package.load (stacked t root) sourceExt q = .error e)
    (he : e = .notFound q ∨ e = .noSourceFiles q) :
    e = .noSourceFiles q ∧ Hides ⟨.memory root, .memory t, temporary⟩ q := by
  by_cases himport : Package.isImportPath q = true
  · have hplace := Package.read?_packageDir himport
    rcases load_stacked_cases sourceExt hroot h.closed himport with
      ⟨package, -, hok, -⟩ | ⟨hdir, hnone, herror⟩ | ⟨cause, -, herror⟩ | ⟨hnone, hsame⟩
    · rw [hload] at hok
      cases hok
    · rw [hload] at herror
      cases herror
      have hholds := h.holdsSources_root hroot himport hq hnone
      exact ⟨rfl, hdir, (hasSources_view_eq_false_iff h.closed hplace).2 hnone,
        (hasSources_view_iff hroot hplace).2 hholds⟩
    · rw [hload] at herror
      cases herror
      rcases he with he | he <;> cases he
    · have hholds := h.holdsSources_root hroot himport hq hnone
      obtain ⟨package, hok⟩ :=
        (Package.load_view_of_dir sourceExt hroot himport (hholds.kind_eq_dir hroot)).1 hholds
      rw [hload, hok] at hsame
      cases hsame
  · rw [Package.load, if_pos (by rwa [Bool.not_eq_true', ← Bool.not_eq_true])] at hload
    cases hload
    rcases he with he | he <;> cases he

end Settled

/-- After a resolver has ended, a build finds everything, and source files in it, unless it is below
a package of the library that the session replaced from the start and the resolver never considered,
or is a package of the library that a directory of the session hides. -/
theorem discover_of_resolve {known : String → Bool} {state : η} {e : LoadError}
    (hroot : root.Reachable) (ht : t.Reachable) (hlibrary : root.view.IsSelfContained sourceExt)
    (hhost : host.ServesNames)
    (hresolve : resolve host policy ⟨⟨.memory root, .memory t, temporary⟩, state, [], []⟩ path =
      (.ok (), r'))
    (hdiscover : PackageSet.discover r'.workspace.sources sourceExt known [path] = .error e)
    (he : e = .notFound q ∨ e = .noSourceFiles q) :
    (∃ p, r'.workspace.Overlooks r'.seen p ∧ hasSources t.view sourceExt p = true ∧
        Needs r'.workspace.sources sourceExt [path] p ∧
        TransGen (Imports r'.workspace.sources sourceExt) p q) ∨
      e = .noSourceFiles q ∧ r'.workspace.Hides q := by
  have hroot := MemoryTree.isClosed_of_reachable hroot
  have ht := MemoryTree.isClosed_of_reachable ht
  obtain ⟨t', hw, hsettled, hall⟩ := settled_of_run hroot hhost rfl (.start ht) hresolve
  have hpath : path ∈ r'.seen := hall path (.inr List.mem_cons_self)
  rw [hw, sources_memory] at hdiscover ⊢
  obtain ⟨q', hneeds, -, hload⟩ := PackageSet.load_of_discover hdiscover
  obtain rfl := Package.eq_of_load_error hload he
  rcases hsettled.of_needs temporary hroot hlibrary hpath hneeds with
    hq | ⟨p, hoverlooked, hneeds', hbelow⟩
  · exact .inr (hsettled.hides_of_load_error temporary hroot hq hload he)
  · have hsession := hoverlooked.2.1
    have hlibrary := hoverlooked.2.2
    obtain ⟨place, hplace⟩ := exists_place_of_hasSources hsession
    have hkept := hsettled.kept place ((hasSources_view_iff hroot hplace).1 hlibrary)
      ((hasSources_view_iff hsettled.closed hplace).1 hsession)
    exact .inl ⟨p, hoverlooked, (hasSources_view_iff ht hplace).2 hkept, hneeds', hbelow⟩

/-! ### A package that is replaced below the library -/

theorem reachable_twoPackages : BuildSession.twoPackages.Reachable := by
  have ha : (∅ : MemoryTree).writeAt "src/a/a.go" "package a\n".toByteArray =
    .ok BuildSession.onePackage := rfl
  have hb : BuildSession.onePackage.writeAt "src/b/b.go" "package b\nimport \"a\"\n".toByteArray =
    .ok BuildSession.twoPackages := rfl
  exact .write (.write .empty ha) hb

theorem isSelfContained_twoPackages :
    BuildSession.twoPackages.view.IsSelfContained sourceExt := by
  refine MemoryTree.isSelfContained_view (MemoryTree.isClosed_of_reachable reachable_twoPackages) ?_
  decide +kernel

/-- The sources of a session with a package `a` that imports another one. -/
def replacement : MemoryTree :=
  ((∅ : MemoryTree).addDirs ["src", "a"]).put ["src", "a", "a.go"]
    "package a\nimport \"github.com/x/new\"\n".toByteArray

/-- The same sources with an entry package that imports the package `b` of the library. -/
def submitted : MemoryTree :=
  (replacement.addDirs ["src", "main"]).put ["src", "main", "main.go"]
    "package main\nimport \"b\"\n".toByteArray

theorem reachable_submitted : submitted.Reachable := by
  have ha : (∅ : MemoryTree).writeAt "src/a/a.go"
    "package a\nimport \"github.com/x/new\"\n".toByteArray = .ok replacement := rfl
  have hmain : replacement.writeAt "src/main/main.go"
    "package main\nimport \"b\"\n".toByteArray = .ok submitted := rfl
  exact .write (.write .empty ha) hmain

def newHost : Host (List String) :=
  .ofPackages ((∅ : Named SourceTree).insert "github.com/x/new"
    ((∅ : SourceTree).insert "new.go" "package new\n".toByteArray))

theorem servesNames_newHost : newHost.ServesNames :=
  Host.servesNames_ofPackages (by decide +kernel)

/-- A session over a library in which the package `b` imports `a`. -/
def overReplaced : Workspace := ⟨.memory BuildSession.twoPackages, .memory submitted, ∅⟩

/-- The resolver of that session after it has considered some packages. -/
def afterSeeing (seen : List String) : Resolver (List String) := ⟨overReplaced, [], seen, []⟩

/-- The resolver never comes to `a`, because the library has what the entry package imports. -/
theorem resolve_overReplaced :
    resolve newHost .default (afterSeeing []) "main" = (.ok (), afterSeeing ["b", "main"]) := by
  have hmain : standing overReplaced "main" = .present := by decide +kernel
  have hb : standing overReplaced "b" = .library := by decide +kernel
  have himports : importsIn overReplaced.path.view "main" = .ok ["b"] := by
    have hsome : (importsIn overReplaced.path.view "main").toOption = some ["b"] := by
      decide +kernel
    exact Results.toOption_eq_some.1 hsome
  have hnew : (afterSeeing ["main"]).newImports ["b"] ++ [] = ["b"] := by decide
  have hfirst : run newHost .default (afterSeeing []) ["main"] =
      run newHost .default (afterSeeing ["main"]) ((afterSeeing ["main"]).newImports ["b"] ++ []) :=
    run_of_present List.not_mem_nil hmain himports
  have hsecond : run newHost .default (afterSeeing ["main"]) ["b"] =
      run newHost .default (afterSeeing ["b", "main"]) [] := run_of_library (by decide) hb
  rw [hnew] at hfirst
  exact hfirst.trans (hsecond.trans (run_nil _))

theorem discover_overReplaced :
    PackageSet.discover overReplaced.sources sourceExt (fun _ => false) ["main"] =
      .error (.notFound "github.com/x/new") := by
  have herror : (PackageSet.discover overReplaced.sources sourceExt (fun _ => false)
      ["main"]).map Std.ExtTreeMap.size = .error (.notFound "github.com/x/new") := by decide +kernel
  cases hdiscover : PackageSet.discover overReplaced.sources sourceExt (fun _ => false)
    ["main"] with
  | ok packages =>
    rw [hdiscover] at herror
    cases herror
  | error e =>
    rw [hdiscover] at herror
    rw [Except.error.inj herror]

/-- What is missing is below a package that the resolver never considered. -/
theorem exists_overlooked : ∃ r', resolve newHost .default (afterSeeing []) "main" =
      (.ok (), r') ∧
    PackageSet.discover r'.workspace.sources sourceExt (fun _ => false) ["main"] =
      .error (.notFound "github.com/x/new") ∧
    ∃ p, r'.workspace.Overlooks r'.seen p ∧ hasSources submitted.view sourceExt p = true ∧
      Needs r'.workspace.sources sourceExt ["main"] p ∧
      TransGen (Imports r'.workspace.sources sourceExt) p "github.com/x/new" := by
  refine ⟨_, resolve_overReplaced, discover_overReplaced, ?_⟩
  have hmissing := discover_of_resolve reachable_twoPackages reachable_submitted
    isSelfContained_twoPackages servesNames_newHost resolve_overReplaced discover_overReplaced
    (.inl rfl)
  exact hmissing.resolve_right fun h => nomatch h.1

/-- So a build may miss a package after a resolver has ended without an error. -/
theorem not_discover_complete :
    ¬ ∀ (host : Host (List String)) (policy : FetchPolicy) (root t temporary : MemoryTree)
      (state : List String) (r' : Resolver (List String)) (e : LoadError) (q : String),
      root.Reachable → t.Reachable → root.view.IsSelfContained sourceExt → host.ServesNames →
        resolve host policy ⟨⟨.memory root, .memory t, temporary⟩, state, [], []⟩ "main" =
          (.ok (), r') →
        PackageSet.discover r'.workspace.sources sourceExt (fun _ => false) ["main"] = .error e →
        e ≠ .notFound q ∧ e ≠ .noSourceFiles q := by
  intro h
  exact (h newHost .default _ _ ∅ [] _ _ "github.com/x/new" reachable_twoPackages
    reachable_submitted isSelfContained_twoPackages servesNames_newHost resolve_overReplaced
    discover_overReplaced).1 rfl

end Resolver

end Playground
