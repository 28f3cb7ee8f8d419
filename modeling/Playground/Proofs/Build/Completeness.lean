import Playground.Proofs.Build.Coherence

/-!
# Answers of builds with any front end

Nothing is asked of the front end here: it may make units under other import paths than those of
their packages, with dependencies that no package imports, and differently from call to call.  Units
are filed under the import paths that they carry, and the answer is the closure of the roots over
what was filed.  The closure fails at a dependency without a unit, so an answer always holds what
its units name.

A root without a unit is no package of that graph and adds nothing to the closure, without an error.
That is the one way in which an answer can be partial: the package at the root was compiled, and no
unit carries its import path (`BuildSession.Reached.closed_answers`).
-/

namespace Playground

open Relation

variable {σ : Type} {sources : View} {ext : String} {frontEnd : FrontEnd σ} {schedule : Schedule}
  {roots : List String} {session : BuildSession} {c : BuildContext σ}

/-! ### Closures that succeed -/

namespace UnitSet

variable {units result : UnitSet}

/-- Units stand at their own import paths. -/
def IsFiled (units : UnitSet) : Prop :=
  ∀ (p : String) (unit : CompiledUnit), units[p]? = some unit → unit.importPath = p

/-- The units that the roots lead to along the dependencies that units name, with everything that
they name among them. -/
structure IsClosureOf (units : UnitSet) (roots : List String) (result : UnitSet) : Prop where
  getElem?_iff : ∀ (p : String) (unit : CompiledUnit), result[p]? = some unit ↔
    units[p]? = some unit ∧ ∃ r ∈ roots, ReflTransGen units.Names r p
  closed : ∀ p d, result.Names p d → d ∈ result

theorem isFiled_empty : IsFiled ∅ := isCoherent_empty.importPath

theorem IsFiled.addUnits (h : units.IsFiled) (us : List CompiledUnit) :
    IsFiled (Pass.addUnits units us) := by
  intro p unit hunit
  rcases Pass.of_getElem?_addUnits hunit with hold | ⟨-, hpath⟩
  · exact h p unit hold
  · exact hpath

theorem IsClosureOf.isFiled (h : units.IsClosureOf roots result) (hfiled : units.IsFiled) :
    result.IsFiled :=
  fun p unit hunit => hfiled p unit ((h.getElem?_iff p unit).1 hunit).1

/-- A root is answered exactly when it has a unit. -/
theorem IsClosureOf.root_mem_iff (h : units.IsClosureOf roots result) {r : String}
    (hr : r ∈ roots) : r ∈ result ↔ r ∈ units := by
  rw [Named.mem_iff, Named.mem_iff]
  simp only [h.getElem?_iff]
  exact exists_congr fun unit => and_iff_left ⟨r, hr, .refl⟩

theorem mem_closure_of_reaches {r p : String} (hr : r ∈ roots) (hp : p ∈ units)
    (hrp : ReflTransGen units.Names r p) :
    p ∈ (ImportGraph.ofUnits units.dependencies).closure roots := by
  refine ImportGraph.mem_closure_iff.2 ⟨r, hr, ?_, ?_⟩
  · rcases ReflTransGen.cases_head hrp with rfl | ⟨d, ⟨unit, hunit, -⟩, -⟩
    · exact mem_nodes_of_mem hp
    · exact mem_nodes_of_mem (Named.mem_of_getElem? hunit)
  · exact ReflTransGen.mono (fun _ _ => dependsOn_iff_names.2) r p hrp

theorem reaches_of_mem_closure {p : String}
    (hp : p ∈ (ImportGraph.ofUnits units.dependencies).closure roots) :
    ∃ r ∈ roots, ReflTransGen units.Names r p := by
  obtain ⟨r, hr, -, hrp⟩ := ImportGraph.mem_closure_iff.1 hp
  exact ⟨r, hr, ReflTransGen.mono (fun _ _ => dependsOn_iff_names.1) r p hrp⟩

end UnitSet

namespace Pass

variable {built result : UnitSet}

theorem mem_of_foldlM_closure {paths : List String} {start : UnitSet}
    (h : (paths.foldlM (fun result path =>
        match built[path]? with
        | some unit => Except.ok (result.insert path unit)
        | none => .error (BuildError.load (.notFound path))) start) = .ok result) :
    ∀ p ∈ paths, p ∈ built := by
  induction paths generalizing start with
  | nil => nofun
  | cons path paths ih =>
    rw [List.foldlM_cons] at h
    cases hunit : built[path]? with
    | none =>
      rw [hunit] at h
      cases h
    | some unit =>
      rw [hunit] at h
      exact List.forall_mem_cons.2 ⟨Named.mem_of_getElem? hunit, ih h⟩

/-- A closure that succeeds has a unit for everything that its units name, because it fails at a
dependency without one. -/
theorem isClosureOf_of_closure (h : closure built roots = .ok result) :
    built.IsClosureOf roots result := by
  have hmem := mem_of_foldlM_closure h
  obtain ⟨result', hresult', hget⟩ := closure_eq rfl hmem
  rw [h] at hresult'
  cases hresult'
  have hiff : ∀ (p : String) (unit : CompiledUnit), result[p]? = some unit ↔
      built[p]? = some unit ∧ ∃ r ∈ roots, ReflTransGen built.Names r p := by
    intro p unit
    rw [hget]
    constructor
    · rintro ⟨hp, hunit⟩
      exact ⟨hunit, UnitSet.reaches_of_mem_closure hp⟩
    · rintro ⟨hunit, r, hr, hrp⟩
      exact ⟨UnitSet.mem_closure_of_reaches hr (Named.mem_of_getElem? hunit) hrp, hunit⟩
  refine ⟨hiff, ?_⟩
  rintro p d ⟨unit, hunit, hd⟩
  obtain ⟨hbuilt, r, hr, hrp⟩ := (hiff p unit).1 hunit
  have hpd : built.Names p d := ⟨unit, hbuilt, hd⟩
  have hin : d ∈ (ImportGraph.ofUnits built.dependencies).closure roots := by
    obtain ⟨s, hs, hnode, hsp⟩ := ImportGraph.mem_closure_iff.1 ((hget p unit).1 hunit).1
    exact ImportGraph.mem_closure_iff.2
      ⟨s, hs, hnode, hsp.tail (UnitSet.dependsOn_iff_names.2 hpd)⟩
  obtain ⟨unit', hunit'⟩ := Named.mem_iff.1 (hmem d hin)
  exact Named.mem_of_getElem? ((hget d unit').2 ⟨hin, hunit'⟩)

theorem closure_of_forall_notMem
    (h : ∀ r ∈ roots, r ∉ (ImportGraph.ofUnits built.dependencies).nodes) :
    closure built roots = .ok ∅ := by
  have hpaths : (ImportGraph.ofUnits built.dependencies).closure roots = [] := by
    refine List.eq_nil_iff_forall_not_mem.2 fun p hp => ?_
    obtain ⟨r, hr, hnode, -⟩ := ImportGraph.mem_closure_iff.1 hp
    exact h r hr hnode
  rw [closure, hpaths]
  rfl

/-! ### One pass -/

/-- What a pass has, whatever the front end makes of the packages, when the packages `remaining` are
still to be compiled. -/
structure Compiled (frontEnd : FrontEnd σ) (sources : View) (ext : String) (p : Pass)
    (remaining : List String) : Prop where
  found : Discovering sources ext (fun q => p.session.units.contains q) p.roots p.packages []
  levels : (ImportGraph.ofImports p.packages.imports).wavesFrom remaining = some p.waves
  filed : p.built.IsFiled
  kept : ∀ q ∈ p.session.units, q ∈ p.built
  made : ∀ q ∈ p.packages, q ∉ remaining → ∃ request unit, p.packages[q]? = some request.package ∧
    request.variant = p.session.variant ∧ frontEnd.Answers request unit ∧
      unit.importPath ∈ p.built

/-- What a pass over `session` has when it has come to its end: a session with no path fewer, the
closure of the roots over its units, and for each root a unit or what the front end made of it. -/
structure Answered (frontEnd : FrontEnd σ) (sources : View) (ext : String)
    (session : BuildSession) (roots : List String) (p : Pass) : Prop where
  filed : p.session.units.IsFiled
  kept : ∀ q ∈ session.units, q ∈ p.session.units
  closure : p.session.units.IsClosureOf roots p.units
  root : ∀ r ∈ roots, r ∈ p.session.units ∨ ∃ request unit,
    Package.load sources ext r = .ok request.package ∧ request.variant = session.variant ∧
      frontEnd.Answers request unit ∧ unit.importPath ∈ p.session.units

variable {p : Pass} {remaining wave : List String} {waves : List (List String)}

theorem of_request_eq_ok {q : String} {request : CompileRequest} (h : p.request q = .ok request) :
    p.packages[q]? = some request.package ∧ request.variant = p.session.variant := by
  unfold Pass.request at h
  split at h
  · cases h
  · rename_i package hpackage
    obtain ⟨dependencies, -, hrequest⟩ := Results.bind_eq_ok.1 h
    cases hrequest
    exact ⟨hpackage, rfl⟩

theorem Compiled.start (frontEnd : FrontEnd σ) {packages : PackageSet}
    (hfiled : session.units.IsFiled)
    (hdiscover : PackageSet.discover sources ext (fun q => session.units.contains q) roots =
      .ok packages)
    (hwaves : (ImportGraph.ofImports packages.imports).waves = some waves) :
    Compiled frontEnd sources ext ⟨session, roots, packages, waves, session.units, none⟩
      (ImportGraph.ofImports packages.imports).nodes where
  found := PackageSet.discovering_of_discover hdiscover
  levels := (ImportGraph.waves_eq _).symm.trans hwaves
  filed := hfiled
  kept _ hq := hq
  made _ hq hnot := absurd (PackageSet.mem_nodes_iff.2 hq) hnot

/-- A level files what the front end makes of its packages. -/
theorem Compiled.level (h : p.Compiled frontEnd sources ext remaining)
    (hwaves : p.waves = wave :: waves) {requests arranged : List CompileRequest}
    {units : List CompiledUnit}
    (hrequests : List.Forall₂ (fun q request => p.request q = .ok request) wave requests)
    (hperm : arranged.Perm requests) (hunits : List.Forall₂ frontEnd.Answers arranged units) :
    Compiled frontEnd sources ext { p with waves, built := addUnits p.built units }
      ((ImportGraph.ofImports p.packages.imports).blockedIn remaining) where
  found := h.found
  levels := (ImportGraph.wavesFrom_cons (hwaves ▸ h.levels)).2
  filed := h.filed.addUnits units
  kept q hq := mem_addUnits.2 (.inl (h.kept q hq))
  made q hq hblocked := by
    by_cases hremains : q ∈ remaining
    · -- the package is in the level
      rw [ImportGraph.mem_blockedIn, not_and_not_right] at hblocked
      have hwave : q ∈ wave :=
        ((ImportGraph.wavesFrom_cons (hwaves ▸ h.levels)).1 q).2 (hblocked hremains)
      obtain ⟨unit, hunit, request, hrequest, hanswer⟩ :=
        (of_forall₂_requests hrequests hperm hunits).2 q hwave
      obtain ⟨hpackage, hvariant⟩ := of_request_eq_ok hrequest
      exact ⟨request, unit, hpackage, hvariant, hanswer,
        mem_addUnits.2 (.inr ⟨unit, hunit, rfl⟩)⟩
    · obtain ⟨request, unit, hpackage, hvariant, hanswer, hbuilt⟩ := h.made q hq hremains
      exact ⟨request, unit, hpackage, hvariant, hanswer, mem_addUnits.2 (.inl hbuilt)⟩

theorem Compiled.ensures_level (h : p.Compiled frontEnd sources ext remaining)
    (hwaves : p.waves = wave :: waves) :
    Ensures (p.step frontEnd schedule) c
      (fun p' _ => ∃ units, p' = { p with waves, built := addUnits p.built units } ∧
        Compiled frontEnd sources ext p'
          ((ImportGraph.ofImports p.packages.imports).blockedIn remaining))
      (fun _ _ => True) := by
  unfold step
  rw [hwaves]
  dsimp only
  rw [Ensures.bind_iff]
  refine (ensures_requests p wave).mono ?_ fun e c' _ => trivial
  rintro requests c' ⟨hrequests, -⟩
  rw [Ensures.bind_iff]
  refine (ensures_compileAll_answers (schedule.arrange requests)).mono ?_ fun e c' _ => trivial
  rintro units c' ⟨hunits, -⟩
  exact ⟨units, rfl, h.level hwaves hrequests (schedule.perm requests) hunits⟩

theorem Compiled.ensures_end (h : p.Compiled frontEnd sources ext remaining)
    (hwaves : p.waves = []) :
    Ensures (p.step frontEnd schedule) c
      (fun p' _ => p'.Answered frontEnd sources ext p.session p.roots) (fun _ _ => True) := by
  have hnone : remaining = [] := ImportGraph.eq_nil_of_wavesFrom (hwaves ▸ h.levels)
  cases hresult : Pass.closure p.built p.roots with
  | error e =>
    unfold step
    rw [hwaves]
    dsimp only
    rw [Ensures.bind_iff, Ensures.lift_iff, hresult]
    trivial
  | ok result =>
    refine Pass.ensures_end hwaves hresult
      ⟨h.filed, h.kept, isClosureOf_of_closure hresult, fun r hr => ?_⟩
    rcases h.found.root r hr with hknown | hfound | hqueue
    · exact .inl (h.kept r (Std.ExtTreeMap.contains_iff_mem.1 hknown))
    · obtain ⟨request, unit, hpackage, hvariant, hanswer, hbuilt⟩ :=
        h.made r hfound (hnone ▸ List.not_mem_nil)
      exact .inr ⟨request, unit, h.found.load r _ hpackage, hvariant, hanswer, hbuilt⟩
    · cases hqueue

theorem Compiled.ensures_steps (h : p.Compiled frontEnd sources ext remaining)
    (hwaves : p.waves = waves) :
    Ensures (steps frontEnd schedule (waves.length + 1) p) c
      (fun p' _ => p'.Answered frontEnd sources ext p.session p.roots) (fun _ _ => True) := by
  induction waves generalizing p remaining c with
  | nil =>
    rw [List.length_nil, steps, Ensures.bind_iff]
    exact (h.ensures_end hwaves).mono (fun p' c' hp' => hp') fun e c' _ => trivial
  | cons wave waves ih =>
    rw [List.length_cons, steps, Ensures.bind_iff]
    refine (h.ensures_level hwaves).mono ?_ fun e c' _ => trivial
    rintro p' c' ⟨units, rfl, h'⟩
    exact ih h' rfl

end Pass

/-! ### Histories of builds -/

namespace BuildSession

/-- What a build does on a session whose units stand at their import paths. -/
theorem build_answered (frontEnd : FrontEnd σ) (schedule : Schedule) (sources : View)
    (ext : String) (roots : List String) (c : BuildContext σ) (hfiled : session.units.IsFiled) :
    match build frontEnd schedule sources ext roots session c with
    | (.ok result, session', _) => session'.units.IsFiled ∧
      (∀ q ∈ session.units, q ∈ session'.units) ∧ session'.units.IsClosureOf roots result ∧
      ∀ r ∈ roots, r ∈ session'.units ∨ ∃ request unit,
        Package.load sources ext r = .ok request.package ∧ request.variant = session.variant ∧
          frontEnd.Answers request unit ∧ unit.importPath ∈ session'.units
    | (.error _, session', _) => session' = session := by
  have hrun : Ensures (do
      let p ← Pass.start schedule sources ext roots session
      Pass.steps frontEnd schedule p.stepsLeft p) c
      (fun p _ => p.Answered frontEnd sources ext session roots) (fun _ _ => True) := by
    rw [Ensures.bind_iff]
    refine Pass.ensures_start_cases.mono ?_ fun e c' _ => trivial
    rintro p c' ⟨-, -, -, packages, waves, hdiscover, hwaves, rfl⟩
    exact (Pass.Compiled.start frontEnd hfiled hdiscover hwaves).ensures_steps rfl
  rcases build_of_ensures hrun with ⟨p, c', he, hanswered⟩ | ⟨e, c', he, -⟩
  · rw [he]
    exact ⟨hanswered.filed, hanswered.kept, hanswered.closure, hanswered.root⟩
  · rw [he]

theorem Reached.isFiled (h : Reached frontEnd session) : session.units.IsFiled := by
  induction h with
  | new variant => exact UnitSet.isFiled_empty
  | @build session before schedule sources ext roots c ih =>
    have hbuild := build_answered frontEnd schedule sources ext roots c ih
    split at hbuild
    · rename_i result session' c' he
      rw [he]
      exact hbuild.1
    · rename_i e session' c' he
      rw [he, hbuild]
      exact ih

/-- After any history of builds with any front end, a build fails and leaves the session as it was,
or answers with the units that its roots lead to: they stand at their own import paths, and what they
name is among them.  A root without a unit in the answer has none in the session either; its package
was compiled, and the unit that was made of it carries another import path. -/
theorem Reached.closed_answers (h : Reached frontEnd session) (schedule : Schedule)
    (sources : View) (ext : String) (roots : List String) (c : BuildContext σ) :
    match BuildSession.build frontEnd schedule sources ext roots session c with
    | (.ok result, session', _) =>
      (∀ (p : String) (unit : CompiledUnit), result[p]? = some unit → unit.importPath = p) ∧
        (∀ (p : String) (unit : CompiledUnit), result[p]? = some unit →
          ∀ d ∈ unit.dependencies, d ∈ result) ∧
        (∀ (p : String) (unit : CompiledUnit), result[p]? = some unit ↔
          session'.units[p]? = some unit ∧ ∃ r ∈ roots, ReflTransGen session'.units.Names r p) ∧
        ∀ r ∈ roots, r ∈ result ∨ r ∉ session.units ∧ r ∉ session'.units ∧ ∃ request unit,
          Package.load sources ext r = .ok request.package ∧ request.variant = session.variant ∧
            frontEnd.Answers request unit ∧ unit.importPath ≠ r
    | (.error _, session', _) => session' = session := by
  have hbuild := build_answered frontEnd schedule sources ext roots c h.isFiled
  split at hbuild
  · rename_i result session' c' _
    obtain ⟨hfiled, hkept, hclosure, hroot⟩ := hbuild
    refine ⟨hclosure.isFiled hfiled, fun p unit hunit d hd => hclosure.closed p d ⟨unit, hunit, hd⟩,
      hclosure.getElem?_iff, fun r hr => ?_⟩
    by_cases hheld : r ∈ session'.units
    · exact .inl ((hclosure.root_mem_iff hr).2 hheld)
    · obtain ⟨request, unit, hload, hvariant, hanswer, hfile⟩ := (hroot r hr).resolve_left hheld
      exact .inr ⟨fun hold => hheld (hkept r hold), hheld, request, unit, hload, hvariant, hanswer,
        fun hpath => hheld (hpath ▸ hfile)⟩
  · exact hbuild

/-! ### A front end that renames packages -/

/-- The front end that makes a unit without dependencies of every package, under the name `b`. -/
def misfiling : FrontEnd Unit := .ofFunction fun _ => .ok ⟨"b", .empty, []⟩

/-- The build of the package `a` with that front end. -/
def misfiled : Except BuildError UnitSet × BuildSession × BuildContext Unit :=
  build misfiling .inOrder onePackage.view "go" ["a"] (.new .full) ⟨(), false, []⟩

theorem ensures_level_misfiled :
    Ensures (Pass.start .inOrder onePackage.view "go" ["a"] (.new .full)) ⟨(), false, []⟩
      (fun p c => p.stepsLeft = 2 ∧ Ensures (p.step misfiling .inOrder) c
        (fun p' _ => p'.waves = [] ∧ p'.roots = ["a"] ∧
          (ImportGraph.ofUnits p'.built.dependencies).nodes = ["b"])
        fun _ _ => False)
      fun _ _ => False := by
  have hfound : Ensures (liftM (PackageSet.discover onePackage.view "go"
        (fun path => (new .full).units.contains path) ["a"]) :
        ExceptT LoadError (StateM (BuildContext Unit)) PackageSet) ⟨(), false, []⟩
      (fun packages c => (ImportGraph.ofImports packages.imports).waves = some [["a"]] ∧
        Ensures (Pass.step misfiling .inOrder
            ⟨new .full, ["a"], packages, [["a"]], (new .full).units, none⟩) c
          (fun p' _ => p'.waves = [] ∧ p'.roots = ["a"] ∧
            (ImportGraph.ofUnits p'.built.dependencies).nodes = ["b"])
          fun _ _ => False)
      fun _ _ => False := by
    decide +kernel
  rw [Ensures.lift_iff] at hfound
  refine Pass.ensures_start_cases.mono ?_ ?_
  · rintro p _ ⟨-, -, rfl, packages, waves, hdiscover, hwaves, rfl⟩
    rw [hdiscover] at hfound
    obtain ⟨hlevels, hstep⟩ := hfound
    rw [hlevels] at hwaves
    cases hwaves
    exact ⟨rfl, hstep⟩
  · rintro e c' ⟨-, ⟨hc, -⟩ | ⟨cause, hdiscover, -⟩ | ⟨packages, hdiscover, hwaves, -⟩ |
      ⟨hstaff, -⟩⟩
    · cases hc
    · rw [hdiscover] at hfound
      exact hfound
    · rw [hdiscover] at hfound
      rw [hfound.1] at hwaves
      cases hwaves
    · exact absurd hstaff (by decide)

theorem misfiled_eq : ∃ session' c', misfiled = (.ok ∅, session', c') := by
  have hrun : Ensures (do
      let p ← Pass.start .inOrder onePackage.view "go" ["a"] (.new .full)
      Pass.steps misfiling .inOrder p.stepsLeft p) ⟨(), false, []⟩
      (fun p _ => p.units = ∅) fun _ _ => False := by
    rw [Ensures.bind_iff]
    refine ensures_level_misfiled.mono ?_ fun _ _ h => h
    rintro p c ⟨hsteps, hlevel⟩
    rw [hsteps, Pass.steps, Ensures.bind_iff]
    refine hlevel.mono ?_ fun _ _ h => h
    rintro p' c' ⟨hwaves, hroots, hnodes⟩
    rw [Pass.steps, Ensures.bind_iff]
    have hresult : Pass.closure p'.built p'.roots = .ok ∅ :=
      Pass.closure_of_forall_notMem (by rw [hroots, hnodes]; decide)
    exact Pass.ensures_end hwaves hresult rfl
  rcases build_of_ensures hrun with ⟨p, c', he, hunits⟩ | ⟨e, c', he, hfalse⟩
  · rw [hunits] at he
    exact ⟨_, _, he⟩
  · exact hfalse.elim

/-- The answer holds everything that its units name, and not the root: the unit that was made of the
root's package carries another import path. -/
theorem exists_answer_without_root : ∃ result, misfiled.1 = .ok result ∧
    (∀ (p : String) (unit : CompiledUnit), result[p]? = some unit →
      ∀ d ∈ unit.dependencies, d ∈ result) ∧
    "a" ∉ result ∧ ∃ request unit, Package.load onePackage.view "go" "a" = .ok request.package ∧
      misfiling.Answers request unit ∧ unit.importPath ≠ "a" := by
  obtain ⟨session', c', hbuild⟩ := misfiled_eq
  have hclosed := Reached.closed_answers (.new .full : Reached misfiling _) .inOrder
    onePackage.view "go" ["a"] ⟨(), false, []⟩
  rw [show build misfiling .inOrder _ _ _ _ _ = _ from hbuild] at hclosed
  obtain ⟨-, hnames, -, hroots⟩ := hclosed
  obtain ⟨-, -, request, unit, hload, -, hanswer, hpath⟩ :=
    (hroots "a" (List.mem_singleton_self "a")).resolve_left Std.ExtTreeMap.not_mem_empty
  exact ⟨∅, congrArg Prod.fst hbuild, hnames, Std.ExtTreeMap.not_mem_empty, request, unit, hload,
    hanswer, hpath⟩

/-- So a build may succeed without an answer to one of its roots. -/
theorem not_roots_answered :
    ¬ ∀ (frontEnd : FrontEnd Unit) (session : BuildSession), Reached frontEnd session →
      ∀ (schedule : Schedule) (sources : View) (ext : String) (roots : List String)
        (c c' : BuildContext Unit) (session' : BuildSession) (result : UnitSet),
        build frontEnd schedule sources ext roots session c = (.ok result, session', c') →
          (∀ r ∈ roots, r ∈ result) ∧
          (∀ (p : String) (unit : CompiledUnit), result[p]? = some unit → unit.importPath = p) ∧
          ∀ (p : String) (unit : CompiledUnit), result[p]? = some unit →
            ∀ d ∈ unit.dependencies, d ∈ result := by
  intro h
  obtain ⟨session', c', hbuild⟩ := misfiled_eq
  exact Std.ExtTreeMap.not_mem_empty
    ((h misfiling _ (.new .full) _ _ _ _ _ _ _ _ hbuild).1 "a" (List.mem_singleton_self "a"))

end BuildSession

end Playground
