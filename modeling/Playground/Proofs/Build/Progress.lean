import Playground.Proofs.Build.Discovery
import Playground.Proofs.Build.Effects
import Playground.Proofs.Build.Units
import Playground.Proofs.Graph.Levels

/-!
# How far a pass has come

Whatever the front end makes of the packages, a pass between two levels has units of exactly what
its session holds and of the packages found that do not remain (`Pass.Progress`).  So the request
for a package that is ready can be made (`Pass.Progress.request`), and a level whose units carry
the import paths of its packages takes away what is ready (`Pass.Progress.level`).
-/

namespace Playground

variable {σ : Type} {sources : View} {ext : String} {frontEnd : FrontEnd σ} {schedule : Schedule}
  {roots : List String} {session : BuildSession} {c : BuildContext σ}

/-! ### Lists side by side -/

section forall₂

variable {α β : Type} {R : α → β → Prop} {as : List α} {bs : List β} {a : α} {b : β}

theorem exists_of_forall₂_left (h : List.Forall₂ R as bs) (ha : a ∈ as) : ∃ b ∈ bs, R a b := by
  induction h with
  | nil => cases ha
  | cons hab _ ih =>
    rcases List.mem_cons.1 ha with rfl | ha
    · exact ⟨_, List.mem_cons_self, hab⟩
    · obtain ⟨b, hb, hab⟩ := ih ha
      exact ⟨b, List.mem_cons_of_mem _ hb, hab⟩

theorem exists_of_forall₂_right (h : List.Forall₂ R as bs) (hb : b ∈ bs) : ∃ a ∈ as, R a b :=
  exists_of_forall₂_left h.flip hb

end forall₂

/-! ### Dependencies -/

def UnitSet.unitAt (built : UnitSet) (path : String) : CompiledUnit :=
  built[path]?.getD ⟨path, .empty, []⟩

theorem UnitSet.getElem?_eq_unitAt {built : UnitSet} {path : String} (h : path ∈ built) :
    built[path]? = some (built.unitAt path) := by
  obtain ⟨unit, hunit⟩ := Named.mem_iff.1 h
  rw [unitAt, hunit, Option.getD_some]

theorem Pass.mapM_dependency {built : UnitSet} {imports : List String} (path : String)
    (h : ∀ d ∈ imports, d ∈ built) :
    imports.mapM (dependency built path) = .ok (imports.map built.unitAt) := by
  induction imports with
  | nil => rfl
  | cons d imports ih =>
    have hd : dependency built path d = .ok (built.unitAt d) := by
      rw [dependency, UnitSet.getElem?_eq_unitAt (h d List.mem_cons_self)]
    rw [List.mapM_cons, hd, ih fun d hd => h d (List.mem_cons_of_mem _ hd)]
    rfl

/-- The edges of the graph of the packages found are the imports among them. -/
theorem Discovering.dependsOn_iff {known : String → Bool} {roots : List String}
    {packages : PackageSet} {x y : String}
    (h : Discovering sources ext known roots packages []) :
    (ImportGraph.ofImports packages.imports).DependsOn x y ↔
      x ∈ packages ∧ Imports sources ext x y ∧ y ∈ packages := by
  rw [ImportGraph.dependsOn_ofImports, PackageSet.imports, Named.mem_map_fst_toList]
  constructor
  · rintro ⟨⟨imports, hmem, hy⟩, hyp⟩
    obtain ⟨package, hpackage, rfl⟩ := Named.mem_map_toList.1 hmem
    exact ⟨Named.mem_of_getElem? hpackage,
      (imports_iff_of_load (h.load x package hpackage)).2 hy, hyp⟩
  · rintro ⟨hx, hy, hyp⟩
    obtain ⟨package, hpackage⟩ := Named.mem_iff.1 hx
    exact ⟨⟨package.imports, Named.mem_map_toList.2 ⟨package, hpackage, rfl⟩,
      (imports_iff_of_load (h.load x package hpackage)).1 hy⟩, hyp⟩

theorem PackageSet.mem_nodes_iff {packages : PackageSet} {q : String} :
    q ∈ (ImportGraph.ofImports packages.imports).nodes ↔ q ∈ packages := by
  rw [ImportGraph.mem_nodes_ofImports, imports, Named.mem_map_fst_toList]

namespace Pass

/-! ### The beginning -/

/-- How a pass begins: the packages found have levels, and all of them are still to be compiled.
It fails if the session is cancelled, a package cannot be read, there is a cycle or the workers
cannot be counted. -/
theorem ensures_start_cases :
    Ensures (start schedule sources ext roots session) c
      (fun p c' => c.cancelled = false ∧ schedule.isOverstaffed = false ∧
        c' = { c with cancelled := c.cancelled || schedule.interrupted } ∧
        ∃ packages waves, PackageSet.discover sources ext
            (fun path => session.units.contains path) roots = .ok packages ∧
          (ImportGraph.ofImports packages.imports).waves = some waves ∧
          p = ⟨session, roots, packages, waves, session.units, none⟩)
      (fun e c' => c'.announced = c.announced ∧
        (c.cancelled = true ∧ e = .cancelled ∨
          (∃ cause, PackageSet.discover sources ext
            (fun path => session.units.contains path) roots = .error cause ∧ e = .load cause) ∨
          (∃ packages, PackageSet.discover sources ext
            (fun path => session.units.contains path) roots = .ok packages ∧
              (ImportGraph.ofImports packages.imports).waves = none ∧ e = .cycle) ∨
          schedule.isOverstaffed = true ∧ e = .worker .overstaffed)) := by
  unfold start
  rw [Ensures.bind_iff, ensures_checkCancelled]
  split
  · rename_i hc
    exact ⟨rfl, .inl ⟨hc, rfl⟩⟩
  · rename_i hc
    dsimp only
    cases hdiscover : PackageSet.discover sources ext (fun path => session.units.contains path)
        roots with
    | error cause => exact ⟨rfl, .inr (.inl ⟨cause, rfl, rfl⟩)⟩
    | ok packages =>
      dsimp only
      rw [ImportGraph.ofPackages?_bind_waves]
      cases hwaves : (ImportGraph.ofImports packages.imports).waves with
      | none => exact ⟨rfl, .inr (.inr (.inl ⟨packages, rfl, hwaves, rfl⟩))⟩
      | some waves =>
        rw [Bool.not_eq_true] at hc
        dsimp only
        rw [Ensures.bind_iff, Ensures.modify_iff, Ensures.bind_iff, ensures_countWorkers]
        split
        · rename_i hstaff
          exact ⟨rfl, .inr (.inr (.inr ⟨hstaff, rfl⟩))⟩
        · rename_i hstaff
          rw [Bool.not_eq_true] at hstaff
          exact ⟨hc, hstaff, rfl, packages, waves, rfl, hwaves, rfl⟩

/-! ### Between two levels -/

/-- What a pass has when the packages `remaining` are still to be compiled. -/
structure Progress (sources : View) (ext : String) (p : Pass) (remaining : List String) : Prop where
  found : Discovering sources ext (fun q => p.session.units.contains q) p.roots p.packages []
  packages : ∀ q ∈ remaining, q ∈ p.packages
  nodup : remaining.Nodup
  levels : (ImportGraph.ofImports p.packages.imports).wavesFrom remaining = some p.waves
  mem_built : ∀ q, q ∈ p.built ↔ q ∈ p.session.units ∨ q ∈ p.packages ∧ q ∉ remaining

variable {p : Pass} {remaining wave : List String} {waves : List (List String)}

theorem Progress.start (session : BuildSession) {packages : PackageSet}
    (hdiscover : PackageSet.discover sources ext (fun q => session.units.contains q) roots =
      .ok packages)
    (hwaves : (ImportGraph.ofImports packages.imports).waves = some waves) :
    Progress sources ext ⟨session, roots, packages, waves, session.units, none⟩
      (ImportGraph.ofImports packages.imports).nodes where
  found := PackageSet.discovering_of_discover hdiscover
  packages q hq := PackageSet.mem_nodes_iff.1 hq
  nodup := (ImportGraph.ofImports packages.imports).nodup
  levels := (ImportGraph.waves_eq _).symm.trans hwaves
  mem_built q := by rw [PackageSet.mem_nodes_iff, and_not_self_iff, or_false]

/-- The packages of the next level are those that are ready. -/
theorem Progress.mem_wave_iff (h : p.Progress sources ext remaining)
    (hwaves : p.waves = wave :: waves) {q : String} :
    q ∈ wave ↔ q ∈ (ImportGraph.ofImports p.packages.imports).readyIn remaining :=
  (ImportGraph.wavesFrom_cons (hwaves ▸ h.levels)).1 q

theorem Progress.request (h : p.Progress sources ext remaining) {q : String}
    (hq : q ∈ (ImportGraph.ofImports p.packages.imports).readyIn remaining) :
    ∃ package, p.packages[q]? = some package ∧ (∀ d ∈ package.imports, d ∈ p.built) ∧
      p.request q = .ok ⟨package, package.imports.map p.built.unitAt, p.session.variant⟩ := by
  obtain ⟨hmem, hready⟩ := ImportGraph.mem_readyIn.1 hq
  have hqp : q ∈ p.packages := h.packages q hmem
  obtain ⟨package, hpackage⟩ := Named.mem_iff.1 hqp
  have hload := h.found.load q package hpackage
  have himports : ∀ d ∈ package.imports, d ∈ p.built := by
    intro d hd
    have hqd : Imports sources ext q d := (imports_iff_of_load hload).2 hd
    rw [h.mem_built]
    rcases h.found.closed q hqp d hqd with hknown | hfound | hqueue
    · exact .inl (Std.ExtTreeMap.contains_iff_mem.1 hknown)
    · exact .inr ⟨hfound, hready d (h.found.dependsOn_iff.2 ⟨hqp, hqd, hfound⟩)⟩
    · cases hqueue
  refine ⟨package, hpackage, himports, ?_⟩
  rw [Pass.request, hpackage]
  dsimp only
  rw [mapM_dependency q himports]
  rfl

/-- What is made of the requests of a level, in any order: something for each package of the level,
and nothing else. -/
theorem of_forall₂_requests {A : CompileRequest → CompiledUnit → Prop}
    {requests arranged : List CompileRequest} {units : List CompiledUnit}
    (hrequests : List.Forall₂ (fun q request => p.request q = .ok request) wave requests)
    (hperm : arranged.Perm requests) (hunits : List.Forall₂ A arranged units) :
    (∀ unit ∈ units, ∃ q ∈ wave, ∃ request, p.request q = .ok request ∧ A request unit) ∧
      ∀ q ∈ wave, ∃ unit ∈ units, ∃ request, p.request q = .ok request ∧ A request unit := by
  constructor
  · intro unit hunit
    obtain ⟨request, hmem, hmade⟩ := exists_of_forall₂_right hunits hunit
    obtain ⟨q, hq, hrequest⟩ := exists_of_forall₂_right hrequests (hperm.mem_iff.1 hmem)
    exact ⟨q, hq, request, hrequest, hmade⟩
  · intro q hq
    obtain ⟨request, hmem, hrequest⟩ := exists_of_forall₂_left hrequests hq
    obtain ⟨unit, hunit, hmade⟩ := exists_of_forall₂_left hunits (hperm.mem_iff.2 hmem)
    exact ⟨unit, hunit, request, hrequest, hmade⟩

theorem Progress.level (h : p.Progress sources ext remaining) (hwaves : p.waves = wave :: waves)
    {units : List CompiledUnit} (hunits : ∀ q, (∃ u ∈ units, u.importPath = q) ↔ q ∈ wave) :
    Progress sources ext { p with waves, built := addUnits p.built units }
      ((ImportGraph.ofImports p.packages.imports).blockedIn remaining) where
  found := h.found
  packages q hq := h.packages q (ImportGraph.mem_blockedIn.1 hq).1
  nodup := h.nodup.filter _
  levels := (ImportGraph.wavesFrom_cons (hwaves ▸ h.levels)).2
  mem_built q := by
    have hready : q ∈ wave → q ∈ p.packages := fun hq =>
      h.packages q (ImportGraph.mem_readyIn.1 ((h.mem_wave_iff hwaves).1 hq)).1
    rw [mem_addUnits, hunits, h.mem_built, ImportGraph.mem_blockedIn, not_and_not_right,
      ← h.mem_wave_iff hwaves, or_assoc]
    refine or_congr_right ⟨?_, ?_⟩
    · rintro (⟨hq, hr⟩ | hq)
      · exact ⟨hq, fun hr' => absurd hr' hr⟩
      · exact ⟨hready hq, fun _ => hq⟩
    · rintro ⟨hq, hr⟩
      by_cases hmem : q ∈ remaining
      · exact .inr (hr hmem)
      · exact .inl ⟨hq, hmem⟩

theorem Progress.eq_nil (h : p.Progress sources ext remaining) (hwaves : p.waves = []) :
    remaining = [] :=
  ImportGraph.eq_nil_of_wavesFrom (hwaves ▸ h.levels)

/-! ### Steps -/

/-- A level makes its requests, announces its packages, compiles them and adds their units. -/
theorem Progress.ensures_level {ok : Pass → BuildContext σ → Prop}
    {err : BuildError → BuildContext σ → Prop} (h : p.Progress sources ext remaining)
    (hwaves : p.waves = wave :: waves)
    (hcompile : ∀ requests,
      List.Forall₂ (fun q request => p.request q = .ok request) wave requests →
        Ensures (compileAll frontEnd (schedule.arrange requests))
          (announce p.session.variant wave c)
          (fun units c' => ok { p with waves, built := addUnits p.built units } c') err) :
    Ensures (p.step frontEnd schedule) c ok err := by
  unfold step
  rw [hwaves]
  dsimp only
  rw [Ensures.bind_iff]
  refine (ensures_requests p wave).mono ?_ ?_
  · rintro requests c' ⟨hrequests, rfl⟩
    rw [Ensures.bind_iff]
    exact (hcompile requests hrequests).mono (fun units c' hunits => hunits) fun e c' he => he
  · rintro e c' ⟨q, hq, he⟩
    obtain ⟨package, -, -, hrequest⟩ := h.request ((h.mem_wave_iff hwaves).1 hq)
    rw [hrequest] at he
    cases he

theorem ensures_end {ok : Pass → BuildContext σ → Prop} {err : BuildError → BuildContext σ → Prop}
    {result : UnitSet} (hwaves : p.waves = []) (hresult : closure p.built p.roots = .ok result)
    (hok : ok { p with session := { p.session with units := p.built }, result := some result } c) :
    Ensures (p.step frontEnd schedule) c ok err := by
  unfold step
  split
  · rename_i hcons
    rw [hwaves] at hcons
    cases hcons
  · rw [Ensures.bind_iff, Ensures.lift_iff, hresult]
    exact hok

end Pass

end Playground
