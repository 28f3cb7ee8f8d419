import Playground.Proofs.Build.Refinement

/-!
# Sessions stay coherent

Sources may change from build to build, so a session may hold units whose packages are gone or read
otherwise by now.  Still, whatever a faithful front end accepts or rejects, everything that the units
of a session name is held by the session, and no unit needs itself (`UnitSet.IsCoherent`).  A unit
that was built before names only such units, since its session was coherent, and the packages of one
pass name each other as the graph of the pass has it, which has levels.

A build that fails leaves the session as it was; one that succeeds adds units, replaces none, and
answers with what its roots lead to along the dependencies that the units name
(`BuildSession.Reached.coherent_builds`).
-/

namespace Playground

open Relation

variable {σ : Type} {sources : View} {ext : String} {frontEnd : FrontEnd σ} {schedule : Schedule}
  {roots : List String} {session : BuildSession} {c : BuildContext σ}

/-! ### Front ends -/

/-- In some state the front end makes the unit of the request. -/
def FrontEnd.Answers (frontEnd : FrontEnd σ) (request : CompileRequest) (unit : CompiledUnit) :
    Prop :=
  ∃ state, (frontEnd.compile request state).1.outcome = .built unit

/-- Whatever the front end accepts, and in whatever state, its units carry the import path of their
package and the import paths of the units they were built against. -/
def FrontEnd.IsFaithful (frontEnd : FrontEnd σ) : Prop :=
  ∀ request unit, frontEnd.Answers request unit →
    unit.importPath = request.package.importPath ∧
      unit.dependencies = request.dependencies.map CompiledUnit.importPath

theorem FrontEnd.Computes.isFaithful {f : CompileRequest → Outcome} (h : frontEnd.Computes f)
    (hf : Faithful f) : frontEnd.IsFaithful := by
  rintro request unit ⟨state, hunit⟩
  rw [h] at hunit
  exact hf request unit hunit

/-- Compiling packages gives units that the front end makes of them, in order, and sees at last that
the session is not cancelled.  It fails with what the front end says, or because the session is
cancelled. -/
theorem Pass.ensures_compileAll_answers (requests : List CompileRequest) :
    Ensures (compileAll frontEnd requests) c
      (fun units c' => List.Forall₂ frontEnd.Answers requests units ∧ c'.cancelled = false)
      (fun e _ => e = .cancelled ∨ (∃ cause, e = .compile cause) ∨
        ∃ cause, e = .worker (.frontEnd cause)) := by
  induction requests generalizing c with
  | nil =>
    rw [compileAll, Ensures.bind_iff, ensures_checkCancelled]
    split
    · exact .inl rfl
    · rename_i hc
      exact ⟨.nil, Bool.eq_false_of_not_eq_true hc⟩
  | cons request requests ih =>
    rw [compileAll, Ensures.bind_iff, ensures_checkCancelled]
    split
    · exact .inl rfl
    · rw [Ensures.bind_iff, ensures_call, Ensures.bind_iff, ensures_checkCancelled]
      split
      · exact .inl rfl
      · cases hanswer : (frontEnd.compile request c.state).1.outcome with
        | built unit =>
          rw [Ensures.bind_iff]
          refine ih.mono ?_ fun e c' he => he
          rintro units c' ⟨hunits, hc'⟩
          exact ⟨.cons ⟨c.state, hanswer⟩ hunits, hc'⟩
        | rejected cause => exact .inr (.inl ⟨cause, rfl⟩)
        | panicked cause => exact .inr (.inr ⟨cause, rfl⟩)

/-! ### Coherent units -/

namespace UnitSet

/-- There is a unit at the first path, and it names the second path as a dependency. -/
def Names (units : UnitSet) (path dependency : String) : Prop :=
  ∃ unit, units[path]? = some unit ∧ dependency ∈ unit.dependencies

/-- Units stand at their own import paths, what they name is among them, and none needs itself. -/
structure IsCoherent (units : UnitSet) : Prop where
  importPath : ∀ (p : String) (unit : CompiledUnit), units[p]? = some unit → unit.importPath = p
  closed : ∀ p d, units.Names p d → d ∈ units
  acyclic : ∀ p, ¬ TransGen units.Names p p

/-- What the roots lead to along the dependencies that units name: those units, all roots among
them. -/
structure IsReachOf (units : UnitSet) (roots : List String) (result : UnitSet) : Prop where
  getElem?_iff : ∀ (p : String) (unit : CompiledUnit), result[p]? = some unit ↔
    units[p]? = some unit ∧ ∃ r ∈ roots, ReflTransGen units.Names r p
  root_mem : ∀ r ∈ roots, r ∈ result

variable {units : UnitSet} {path dependency : String}

theorem isCoherent_empty : IsCoherent ∅ := by
  have hnone (p : String) (unit : CompiledUnit) : (∅ : UnitSet)[p]? ≠ some unit := by
    rw [Std.ExtTreeMap.getElem?_empty]
    nofun
  constructor
  · exact fun p unit h => absurd h (hnone p unit)
  · rintro p d ⟨unit, h, -⟩
    exact absurd h (hnone p unit)
  · intro p hp
    obtain ⟨d, ⟨unit, h, -⟩, -⟩ := TransGen.head'_iff.1 hp
    exact absurd h (hnone p unit)

theorem IsReachOf.mem_iff {result : UnitSet} {p : String} (h : units.IsReachOf roots result) :
    p ∈ result ↔ p ∈ units ∧ ∃ r ∈ roots, ReflTransGen units.Names r p := by
  rw [Named.mem_iff, Named.mem_iff]
  simp only [h.getElem?_iff, exists_and_right]

theorem dependsOn_iff_names :
    (ImportGraph.ofUnits units.dependencies).DependsOn path dependency ↔
      units.Names path dependency := by
  rw [ImportGraph.dependsOn_ofUnits]
  constructor
  · rintro ⟨dependencies, hmem, hd⟩
    obtain ⟨unit, hunit, rfl⟩ := Named.mem_map_toList.1 hmem
    exact ⟨unit, hunit, hd⟩
  · rintro ⟨unit, hunit, hd⟩
    exact ⟨unit.dependencies, Named.mem_map_toList.2 ⟨unit, hunit, rfl⟩, hd⟩

theorem IsCoherent.of_reaches (h : units.IsCoherent) (hp : path ∈ units)
    (hd : ReflTransGen units.Names path dependency) : dependency ∈ units := by
  induction hd with
  | refl => exact hp
  | tail _ hd ih => exact h.closed _ _ hd

theorem IsCoherent.closure_eq (h : units.IsCoherent) (hroots : ∀ r ∈ roots, r ∈ units) :
    ∃ result, Pass.closure units roots = .ok result ∧ units.IsReachOf roots result := by
  have hnames : (ImportGraph.ofUnits units.dependencies).DependsOn = units.Names :=
    funext fun _ => funext fun _ => propext dependsOn_iff_names
  have hclosure {p : String} : p ∈ (ImportGraph.ofUnits units.dependencies).closure roots ↔
      ∃ r ∈ roots, ReflTransGen units.Names r p := by
    rw [ImportGraph.mem_closure_iff, hnames]
    constructor
    · rintro ⟨r, hr, -, hrp⟩
      exact ⟨r, hr, hrp⟩
    · rintro ⟨r, hr, hrp⟩
      exact ⟨r, hr, mem_nodes_of_mem (hroots r hr), hrp⟩
  obtain ⟨result, hresult, hget⟩ := Pass.closure_eq rfl fun p hp => by
    obtain ⟨r, hr, hrp⟩ := hclosure.1 hp
    exact h.of_reaches (hroots r hr) hrp
  refine ⟨result, hresult, fun p unit => ?_, fun r hr => ?_⟩
  · rw [hget, hclosure, and_comm]
  · obtain ⟨unit, hunit⟩ := Named.mem_iff.1 (hroots r hr)
    exact Named.mem_of_getElem? ((hget r unit).2 ⟨hclosure.2 ⟨r, hr, .refl⟩, hunit⟩)

end UnitSet

/-! ### One pass -/

namespace Pass

/-- What a pass over a coherent session has recorded: the units of the session, and units that the
front end made of the packages found, each against units of its imports. -/
structure Recorded (frontEnd : FrontEnd σ) (p : Pass) : Prop where
  coherent : p.session.units.IsCoherent
  acyclic : (ImportGraph.ofImports p.packages.imports).IsAcyclic
  kept : ∀ (q : String) (unit : CompiledUnit),
    p.session.units[q]? = some unit → p.built[q]? = some unit
  made : ∀ (q : String) (package : Package) (unit : CompiledUnit),
    p.packages[q]? = some package → p.built[q]? = some unit → ∃ dependencies,
      frontEnd.Answers ⟨package, dependencies, p.session.variant⟩ unit ∧
        dependencies.map CompiledUnit.importPath = package.imports

/-- What a pass over `session` that found `packages` has when it has come to its end: a session with
a unit of each of them beside its own, and the units that the roots lead to. -/
structure Ended (frontEnd : FrontEnd σ) (session : BuildSession) (roots : List String)
    (packages : PackageSet) (p : Pass) : Prop where
  isSome_result : p.result.isSome = true
  coherent : p.session.units.IsCoherent
  kept : ∀ (q : String) (unit : CompiledUnit),
    session.units[q]? = some unit → p.session.units[q]? = some unit
  made : ∀ (q : String) (package : Package), packages[q]? = some package →
    ∃ unit request, p.session.units[q]? = some unit ∧ unit.dependencies = package.imports ∧
      request.package = package ∧ frontEnd.Answers request unit
  mem_units : ∀ q, q ∈ p.session.units ↔ q ∈ session.units ∨ q ∈ packages
  reach : p.session.units.IsReachOf roots p.units

variable {p : Pass} {remaining wave : List String} {waves : List (List String)}

theorem Progress.notMem_session (h : p.Progress sources ext remaining) {q : String}
    (hq : q ∈ p.packages) : q ∉ p.session.units := by
  intro hheld
  have hunknown := h.found.unknown q hq
  rw [Std.ExtTreeMap.contains_iff_mem.2 hheld] at hunknown
  cases hunknown

theorem Recorded.start (frontEnd : FrontEnd σ) {packages : PackageSet}
    (hcoherent : session.units.IsCoherent)
    (hprogress : Progress sources ext ⟨session, roots, packages, waves, session.units, none⟩
      remaining)
    (hwaves : (ImportGraph.ofImports packages.imports).waves = some waves) :
    Recorded frontEnd ⟨session, roots, packages, waves, session.units, none⟩ where
  coherent := hcoherent
  acyclic := ImportGraph.isSome_waves_iff.1 (Option.isSome_iff_exists.2 ⟨waves, hwaves⟩)
  kept _ _ h := h
  made _ _ _ hpackage hunit :=
    absurd (Named.mem_of_getElem? hunit)
      (hprogress.notMem_session (Named.mem_of_getElem? hpackage))

section faithful

variable (hf : frontEnd.IsFaithful)
include hf

theorem Recorded.of_made (h : p.Recorded frontEnd) (hprogress : p.Progress sources ext remaining)
    {q : String} {package : Package} {unit : CompiledUnit}
    (hpackage : p.packages[q]? = some package) (hunit : p.built[q]? = some unit) :
    unit.importPath = q ∧ unit.dependencies = package.imports := by
  obtain ⟨dependencies, hanswer, himports⟩ := h.made q package unit hpackage hunit
  obtain ⟨hpath, hdependencies⟩ := hf _ unit hanswer
  have hload := hprogress.found.load q package hpackage
  exact ⟨hpath.trans (Package.load_importPath hload), hdependencies.trans himports⟩

theorem Recorded.importPath (h : p.Recorded frontEnd)
    (hprogress : p.Progress sources ext remaining) {q : String} {unit : CompiledUnit}
    (hunit : p.built[q]? = some unit) : unit.importPath = q := by
  rcases (hprogress.mem_built q).1 (Named.mem_of_getElem? hunit) with hold | ⟨hnew, -⟩
  · obtain ⟨unit', hunit'⟩ := Named.mem_iff.1 hold
    have hkept := h.kept q unit' hunit'
    rw [hunit] at hkept
    cases hkept
    exact h.coherent.importPath q unit hunit'
  · obtain ⟨package, hpackage⟩ := Named.mem_iff.1 hnew
    exact (h.of_made hf hprogress hpackage hunit).1

/-- What the front end makes of a package of the next level carries its import path and was made
with units of all its imports. -/
theorem Recorded.of_answers (h : p.Recorded frontEnd) (hprogress : p.Progress sources ext remaining)
    (hwaves : p.waves = wave :: waves) {q : String} (hq : q ∈ wave) {request : CompileRequest}
    {unit : CompiledUnit} (hrequest : p.request q = .ok request)
    (hanswer : frontEnd.Answers request unit) :
    unit.importPath = q ∧ ∃ package, p.packages[q]? = some package ∧ ∃ dependencies,
      frontEnd.Answers ⟨package, dependencies, p.session.variant⟩ unit ∧
        dependencies.map CompiledUnit.importPath = package.imports := by
  obtain ⟨package, hpackage, himports, hrequest'⟩ :=
    hprogress.request ((hprogress.mem_wave_iff hwaves).1 hq)
  rw [hrequest] at hrequest'
  cases hrequest'
  have hload := hprogress.found.load q package hpackage
  refine ⟨(hf _ unit hanswer).1.trans (Package.load_importPath hload), package, hpackage, _,
    hanswer, ?_⟩
  rw [List.map_map]
  refine (List.map_congr_left fun d hd => ?_).trans (List.map_id package.imports)
  exact h.importPath hf hprogress (UnitSet.getElem?_eq_unitAt (himports d hd))

/-- A level adds units that the front end made of its packages. -/
theorem Recorded.level (h : p.Recorded frontEnd) (hprogress : p.Progress sources ext remaining)
    (hwaves : p.waves = wave :: waves) {requests arranged : List CompileRequest}
    {units : List CompiledUnit}
    (hrequests : List.Forall₂ (fun q request => p.request q = .ok request) wave requests)
    (hperm : arranged.Perm requests) (hunits : List.Forall₂ frontEnd.Answers arranged units) :
    Progress sources ext { p with waves, built := addUnits p.built units }
        ((ImportGraph.ofImports p.packages.imports).blockedIn remaining) ∧
      Recorded frontEnd { p with waves, built := addUnits p.built units } := by
  obtain ⟨hmade, hall⟩ := of_forall₂_requests hrequests hperm hunits
  have hpaths (q : String) : (∃ u ∈ units, u.importPath = q) ↔ q ∈ wave := by
    constructor
    · rintro ⟨unit, hunit, rfl⟩
      obtain ⟨q, hq, request, hrequest, hanswer⟩ := hmade unit hunit
      rwa [(h.of_answers hf hprogress hwaves hq hrequest hanswer).1]
    · intro hq
      obtain ⟨unit, hunit, request, hrequest, hanswer⟩ := hall q hq
      exact ⟨unit, hunit, (h.of_answers hf hprogress hwaves hq hrequest hanswer).1⟩
  refine ⟨hprogress.level hwaves hpaths, h.coherent, h.acyclic, fun q unit hunit => ?_,
    fun q package unit hpackage hunit => ?_⟩
  · have hbuilt := h.kept q unit hunit
    have hmem : q ∈ addUnits p.built units :=
      mem_addUnits.2 (.inl (Named.mem_of_getElem? hbuilt))
    obtain ⟨unit', hunit'⟩ := Named.mem_iff.1 hmem
    rcases of_getElem?_addUnits hunit' with hold | ⟨hmem, hpath⟩
    · rw [hbuilt] at hold
      cases hold
      exact hunit'
    · -- the level holds no package that the session holds
      have hready := (hprogress.mem_wave_iff hwaves).1 ((hpaths q).1 ⟨unit', hmem, hpath⟩)
      have hfound := hprogress.packages q (ImportGraph.mem_readyIn.1 hready).1
      exact absurd (Named.mem_of_getElem? hunit) (hprogress.notMem_session hfound)
  · rcases of_getElem?_addUnits hunit with hold | ⟨hmem, hpath⟩
    · exact h.made q package unit hpackage hold
    · obtain ⟨q', hq', request, hrequest, hanswer⟩ := hmade unit hmem
      obtain ⟨hpath', package', hpackage', hmade'⟩ :=
        h.of_answers hf hprogress hwaves hq' hrequest hanswer
      have hsame : q' = q := hpath'.symm.trans hpath
      rw [hsame, hpackage] at hpackage'
      cases hpackage'
      exact hmade'

/-- A unit of a package found names what is held or was found: as the session has it, or as the
packages import each other. -/
theorem Recorded.of_names (h : p.Recorded frontEnd) (hprogress : p.Progress sources ext [])
    {q d : String} (hnames : p.built.Names q d) :
    q ∈ p.session.units ∧ p.session.units.Names q d ∨ q ∉ p.session.units ∧
      (d ∈ p.session.units ∨ (ImportGraph.ofImports p.packages.imports).DependsOn q d) := by
  obtain ⟨unit, hunit, hd⟩ := hnames
  rcases (hprogress.mem_built q).1 (Named.mem_of_getElem? hunit) with hold | ⟨hnew, -⟩
  · obtain ⟨unit', hunit'⟩ := Named.mem_iff.1 hold
    have hkept := h.kept q unit' hunit'
    rw [hunit] at hkept
    cases hkept
    exact .inl ⟨hold, unit, hunit', hd⟩
  · obtain ⟨package, hpackage⟩ := Named.mem_iff.1 hnew
    rw [(h.of_made hf hprogress hpackage hunit).2] at hd
    have hqd : Imports sources ext q d :=
      (imports_iff_of_load (hprogress.found.load q package hpackage)).2 hd
    refine .inr ⟨hprogress.notMem_session hnew, ?_⟩
    rcases hprogress.found.closed q hnew d hqd with hknown | hfound | hqueue
    · exact .inl (Std.ExtTreeMap.contains_iff_mem.1 hknown)
    · exact .inr (hprogress.found.dependsOn_iff.2 ⟨hnew, hqd, hfound⟩)
    · cases hqueue

/-- When nothing remains, the units are coherent. -/
theorem Recorded.isCoherent_built (h : p.Recorded frontEnd)
    (hprogress : p.Progress sources ext []) : p.built.IsCoherent := by
  have hheld : ∀ q d, p.built.Names q d → q ∈ p.session.units →
      d ∈ p.session.units ∧ p.session.units.Names q d := by
    intro q d hnames hq
    rcases h.of_names hf hprogress hnames with ⟨-, hold⟩ | ⟨hnot, -⟩
    · exact ⟨h.coherent.closed q d hold, hold⟩
    · exact absurd hq hnot
  constructor
  · exact fun q unit hunit => h.importPath hf hprogress hunit
  · intro q d hnames
    rw [hprogress.mem_built]
    rcases h.of_names hf hprogress hnames with ⟨-, hold⟩ | ⟨-, hd | hd⟩
    · exact .inl (h.coherent.closed q d hold)
    · exact .inl hd
    · exact .inr ⟨PackageSet.mem_nodes_iff.1 hd.dependency_mem, List.not_mem_nil⟩
  · intro q hcycle
    by_cases hq : q ∈ p.session.units
    · -- a cycle through a unit of the session never leaves the session
      have hinside : ∀ d, TransGen p.built.Names q d →
          d ∈ p.session.units ∧ TransGen p.session.units.Names q d := by
        intro d hd
        induction hd with
        | single hd => exact (hheld _ _ hd hq).imp_right .single
        | tail _ hd ih => exact (hheld _ _ hd ih.1).imp_right ih.2.tail
      exact h.coherent.acyclic q (hinside q hcycle).2
    · -- a cycle through another unit never enters it
      have houtside : ∀ d, TransGen p.built.Names d q → d ∉ p.session.units ∧
          TransGen (ImportGraph.ofImports p.packages.imports).DependsOn d q := by
        intro d hd
        induction hd using TransGen.head_induction_on with
        | single hd =>
          rcases h.of_names hf hprogress hd with ⟨hold, hnames⟩ | ⟨hnot, hmem | hdepends⟩
          · exact absurd (hheld _ _ hd hold).1 hq
          · exact absurd hmem hq
          · exact ⟨hnot, .single hdepends⟩
        | head hd _ ih =>
          rcases h.of_names hf hprogress hd with ⟨hold, hnames⟩ | ⟨hnot, hmem | hdepends⟩
          · exact absurd (hheld _ _ hd hold).1 ih.1
          · exact absurd hmem ih.1
          · exact ⟨hnot, .head hdepends ih.2⟩
      exact h.acyclic q (houtside q hcycle).2

theorem Recorded.ensures_end (h : p.Recorded frontEnd)
    (hprogress : p.Progress sources ext remaining) (hwaves : p.waves = []) :
    Ensures (p.step frontEnd schedule) c
      (fun p' c' => p'.Ended frontEnd p.session p.roots p.packages ∧ c' = c)
      (fun _ _ => False) := by
  cases hprogress.eq_nil hwaves
  have hmem (q : String) : q ∈ p.built ↔ q ∈ p.session.units ∨ q ∈ p.packages := by
    rw [hprogress.mem_built, and_iff_left List.not_mem_nil]
  have hroots : ∀ r ∈ p.roots, r ∈ p.built := by
    intro r hr
    rw [hmem]
    rcases hprogress.found.root r hr with hknown | hfound | hqueue
    · exact .inl (Std.ExtTreeMap.contains_iff_mem.1 hknown)
    · exact .inr hfound
    · cases hqueue
  have hcoherent := h.isCoherent_built hf hprogress
  obtain ⟨result, hresult, hreach⟩ := hcoherent.closure_eq hroots
  refine Pass.ensures_end hwaves hresult ⟨⟨rfl, hcoherent, h.kept, fun q package hpackage => ?_,
    hmem, hreach⟩, rfl⟩
  obtain ⟨unit, hunit⟩ := Named.mem_iff.1 ((hmem q).2 (.inr (Named.mem_of_getElem? hpackage)))
  obtain ⟨dependencies, hanswer, -⟩ := h.made q package unit hpackage hunit
  exact ⟨unit, ⟨package, dependencies, p.session.variant⟩, hunit,
    (h.of_made hf hprogress hpackage hunit).2, rfl, hanswer⟩

theorem Recorded.ensures_steps (h : p.Recorded frontEnd)
    (hprogress : p.Progress sources ext remaining) (hwaves : p.waves = waves) :
    Ensures (steps frontEnd schedule (waves.length + 1) p) c
      (fun p' _ => p'.Ended frontEnd p.session p.roots p.packages) (fun _ _ => True) := by
  induction waves generalizing p remaining c with
  | nil =>
    rw [List.length_nil, steps, Ensures.bind_iff]
    refine (h.ensures_end hf hprogress hwaves).mono ?_ fun e c' he => he.elim
    rintro p' c' ⟨hended, -⟩
    exact hended
  | cons wave waves ih =>
    rw [List.length_cons, steps, Ensures.bind_iff]
    refine hprogress.ensures_level hwaves fun requests hrequests => ?_
    refine (ensures_compileAll_answers (schedule.arrange requests)).mono ?_ fun e c' _ => trivial
    rintro units c' ⟨hunits, -⟩
    obtain ⟨hprogress', h'⟩ :=
      h.level hf hprogress hwaves hrequests (schedule.perm requests) hunits
    exact ih h' hprogress' rfl

end faithful

end Pass

/-! ### Histories of builds -/

namespace BuildSession

/-- What a build on a coherent session does.  A build that succeeds only adds units, and answers
with what its roots lead to; one that fails leaves the session as it was. -/
theorem build_coherent (hf : frontEnd.IsFaithful) (schedule : Schedule) (sources : View)
    (ext : String) (roots : List String) (c : BuildContext σ)
    (h : session.units.IsCoherent) :
    match build frontEnd schedule sources ext roots session c with
    | (.ok result, session', _) => session'.units.IsCoherent ∧
      (∀ (q : String) (unit : CompiledUnit),
        session.units[q]? = some unit → session'.units[q]? = some unit) ∧
      session'.units.IsReachOf roots result
    | (.error _, session', _) => session' = session := by
  have hrun : Ensures (do
      let p ← Pass.start schedule sources ext roots session
      Pass.steps frontEnd schedule p.stepsLeft p) c
      (fun p _ => ∃ packages, p.Ended frontEnd session roots packages) (fun _ _ => True) := by
    rw [Ensures.bind_iff]
    refine Pass.ensures_start_cases.mono ?_ fun e c' _ => trivial
    rintro p c' ⟨-, -, -, packages, waves, hdiscover, hwaves, rfl⟩
    have hprogress := Pass.Progress.start session hdiscover hwaves
    have hrecorded := Pass.Recorded.start frontEnd h hprogress hwaves
    exact (hrecorded.ensures_steps hf hprogress rfl).mono (fun p' _ hended => ⟨packages, hended⟩)
      fun e c' _ => trivial
  rcases build_of_ensures hrun with ⟨p, c', he, packages, hended⟩ | ⟨e, c', he, -⟩
  · rw [he]
    exact ⟨hended.coherent, hended.kept, hended.reach⟩
  · rw [he]

/-- Sessions that come from a fresh one by builds, of any roots from any sources, whether they
succeed or fail. -/
inductive Reached (frontEnd : FrontEnd σ) : BuildSession → Prop where
  | new (variant : Variant) : Reached frontEnd (.new variant)
  | build {session : BuildSession} (before : Reached frontEnd session) (schedule : Schedule)
      (sources : View) (ext : String) (roots : List String) (c : BuildContext σ) :
      Reached frontEnd (BuildSession.build frontEnd schedule sources ext roots session c).2.1

theorem Reached.isCoherent (hf : frontEnd.IsFaithful) (h : Reached frontEnd session) :
    session.units.IsCoherent := by
  induction h with
  | new variant => exact UnitSet.isCoherent_empty
  | @build session before schedule sources ext roots c ih =>
    have hbuild := build_coherent hf schedule sources ext roots c ih
    split at hbuild
    · rename_i result session' c' he
      rw [he]
      exact hbuild.1
    · rename_i e session' c' he
      rw [he, hbuild]
      exact ih

/-- After any history of builds, successful or not, the units of a session stand at their import
paths, what they name is among them, and none needs itself.  The next build either fails and leaves
the session as it was, or only adds units and answers with exactly those that its roots lead to, all
roots among them. -/
theorem Reached.coherent_builds (hf : frontEnd.IsFaithful) (h : Reached frontEnd session) :
    session.units.IsCoherent ∧
      ∀ (schedule : Schedule) (sources : View) (ext : String) (roots : List String)
        (c : BuildContext σ),
        match BuildSession.build frontEnd schedule sources ext roots session c with
        | (.ok result, session', _) =>
          (∀ (q : String) (unit : CompiledUnit),
            session.units[q]? = some unit → session'.units[q]? = some unit) ∧
            session'.units.IsReachOf roots result
        | (.error _, session', _) => session' = session := by
  have hcoherent := h.isCoherent hf
  refine ⟨hcoherent, fun schedule sources ext roots c => ?_⟩
  have hbuild := build_coherent hf schedule sources ext roots c hcoherent
  split at hbuild
  · exact hbuild.2
  · exact hbuild

/-- The session that bundled a package and what it imports holds coherent units, the package among
them. -/
theorem exists_coherent_twoPackages :
    ∃ session, Reached Bundle.frontEnd session ∧ session.units.IsCoherent ∧ "b" ∈ session.units := by
  have hf : Bundle.frontEnd.IsFaithful := Bundle.computes_outcome.isFaithful Bundle.faithful_outcome
  have hfresh : Reached Bundle.frontEnd (.new .optimized) := .new .optimized
  have hbuild := (Reached.coherent_builds hf hfresh).2 .inOrder twoPackages.view "go" ["b"]
    ⟨∅, false, []⟩
  obtain ⟨units, session₁, c₁, hok⟩ := exists_build_twoPackages
  refine ⟨_, hfresh.build .inOrder twoPackages.view "go" ["b"] ⟨∅, false, []⟩, ?_⟩
  split at hbuild
  · rename_i result session' c' he
    rw [he]
    have hreached : Reached Bundle.frontEnd session' := by
      have := hfresh.build .inOrder twoPackages.view "go" ["b"] ⟨∅, false, []⟩
      rwa [he] at this
    refine ⟨(Reached.coherent_builds hf hreached).1, ?_⟩
    obtain ⟨unit, hunit⟩ := Named.mem_iff.1 (hbuild.2.root_mem "b" (List.mem_singleton_self "b"))
    exact Named.mem_of_getElem? ((hbuild.2.getElem?_iff "b" unit).1 hunit).1
  · rename_i e session' c' he
    rw [he] at hok
    cases hok

end BuildSession

end Playground
