import Mathlib.Logic.Relation
import Playground.Build.Session
import Playground.Proofs.Package

/-!
# What a build should give

The unit of a package is settled by the sources and the front end alone, without any session, level
or order: read the package, take the units of its imports in their order, and call the front end
(`Meaning`).  Everything here speaks of a front end whose answers are a function `f` of what it is
given (`FrontEnd.Computes`) and that is `Faithful`: its units carry the import path of the package
and name the units they were built against.

`Buildable` says when all packages that some roots need have a unit.
-/

namespace Playground

open Relation

/-! ### Front ends -/

/-- The answers of a front end are a function of what it is given, and it never cancels.  What it
leaves in its state is up to it. -/
def FrontEnd.Computes {σ : Type} (frontEnd : FrontEnd σ) (f : CompileRequest → Outcome) : Prop :=
  ∀ request state, (frontEnd.compile request state).1 = ⟨f request, false⟩

/-- Units carry the import path of their package and the import paths of the units they were built
against, in order. -/
def Faithful (f : CompileRequest → Outcome) : Prop :=
  ∀ request unit, f request = .built unit →
    unit.importPath = request.package.importPath ∧
      unit.dependencies = request.dependencies.map CompiledUnit.importPath

/-! ### Imports -/

section imports

variable (sources : View) (ext : String)

/-- The package at the first path can be read and imports the second path. -/
def Imports (path dependency : String) : Prop :=
  ∃ package, Package.load sources ext path = .ok package ∧ dependency ∈ package.imports

/-- One of the roots is the path, or leads to it along imports. -/
def Needs (roots : List String) (path : String) : Prop :=
  ∃ root ∈ roots, ReflTransGen (Imports sources ext) root path

variable {sources ext} {roots : List String} {path dependency : String} {package : Package}

theorem Needs.of_mem (h : path ∈ roots) : Needs sources ext roots path := ⟨path, h, .refl⟩

theorem Needs.tail (h : Needs sources ext roots path) (hd : Imports sources ext path dependency) :
    Needs sources ext roots dependency := by
  obtain ⟨root, hroot, hpath⟩ := h
  exact ⟨root, hroot, hpath.tail hd⟩

theorem Needs.cons_iff {root : String} :
    Needs sources ext (root :: roots) path ↔
      Needs sources ext [root] path ∨ Needs sources ext roots path := by
  simp only [Needs, List.mem_cons, List.not_mem_nil, or_false, exists_eq_or_imp, exists_eq_left]

theorem Needs.congr {roots' : List String} (h : ∀ p, p ∈ roots' ↔ p ∈ roots) :
    Needs sources ext roots' path ↔ Needs sources ext roots path := by
  simp only [Needs, h]

/-- What holds of the roots and is handed on along imports holds of all that the roots need. -/
theorem Needs.induction {P : String → Prop} (h : Needs sources ext roots path)
    (hroot : ∀ root ∈ roots, P root)
    (hstep : ∀ p d, Imports sources ext p d → P p → P d) : P path := by
  obtain ⟨root, hmem, hpath⟩ := h
  induction hpath with
  | refl => exact hroot root hmem
  | tail _ hd ih => exact hstep _ _ hd ih

theorem needs_singleton :
    Needs sources ext [path] dependency ↔ ReflTransGen (Imports sources ext) path dependency := by
  constructor
  · rintro ⟨root, hroot, h⟩
    rwa [List.mem_singleton.1 hroot] at h
  · intro h
    exact ⟨path, List.mem_singleton_self path, h⟩

theorem imports_iff_of_load (h : Package.load sources ext path = .ok package) :
    Imports sources ext path dependency ↔ dependency ∈ package.imports := by
  constructor
  · rintro ⟨package', h', hd⟩
    rw [h] at h'
    cases h'
    exact hd
  · intro hd
    exact ⟨package, h, hd⟩

end imports

/-! ### Meanings -/

section meanings

variable (sources : View) (ext : String) (f : CompileRequest → Outcome) (variant : Variant)

/-- The unit of the package at a path: what the front end makes of the package and of the units of
its imports. -/
inductive Meaning : String → CompiledUnit → Prop where
  | built {path : String} {package : Package} {unit : CompiledUnit}
      (unitOf : String → CompiledUnit) (load : Package.load sources ext path = .ok package)
      (imports : ∀ d ∈ package.imports, Meaning d (unitOf d))
      (built : f ⟨package, package.imports.map unitOf, variant⟩ = .built unit) : Meaning path unit

/-- The front end makes a unit of the package at a path, once all its imports have theirs. -/
def IsAccepted (path : String) : Prop :=
  ∀ package unitOf, Package.load sources ext path = .ok package →
    (∀ d ∈ package.imports, Meaning sources ext f variant d (unitOf d)) →
      ∃ unit, f ⟨package, package.imports.map unitOf, variant⟩ = .built unit

/-- Everything that some roots need can be read and is accepted, and nothing in it needs itself. -/
structure Buildable (roots : List String) : Prop where
  loads : ∀ p, Needs sources ext roots p → ∃ package, Package.load sources ext p = .ok package
  acyclic : ∀ p, Needs sources ext roots p → ¬ TransGen (Imports sources ext) p p
  accepted : ∀ p, Needs sources ext roots p → IsAccepted sources ext f variant p

variable {sources ext f variant} {path dependency : String} {unit unit' : CompiledUnit}

theorem Meaning.unique (h : Meaning sources ext f variant path unit)
    (h' : Meaning sources ext f variant path unit') : unit = unit' := by
  induction h generalizing unit' with
  | built unitOf load imports built ih =>
    cases h' with
    | built unitOf' load' imports' built' =>
      rw [load] at load'
      cases load'
      have hunits := List.map_congr_left fun d hd => ih d hd (imports' d hd)
      rw [hunits, built'] at built
      cases built
      rfl

theorem Meaning.loads (h : Meaning sources ext f variant path unit) :
    ∃ package, Package.load sources ext path = .ok package := by
  cases h with
  | built unitOf load => exact ⟨_, load⟩

theorem Meaning.of_imports (h : Meaning sources ext f variant path unit)
    (hd : Imports sources ext path dependency) :
    ∃ unit, Meaning sources ext f variant dependency unit := by
  cases h with
  | built unitOf load imports =>
    exact ⟨unitOf dependency, imports dependency ((imports_iff_of_load load).1 hd)⟩

/-- Whatever a package with a unit needs has a unit. -/
theorem Meaning.of_reaches (h : Meaning sources ext f variant path unit)
    (hd : ReflTransGen (Imports sources ext) path dependency) :
    ∃ unit, Meaning sources ext f variant dependency unit := by
  induction hd with
  | refl => exact ⟨unit, h⟩
  | tail _ hd ih =>
    obtain ⟨unit', h'⟩ := ih
    exact h'.of_imports hd

/-- The unit of a package is settled by the packages that it needs. -/
theorem Meaning.congr {sources' : View} (h : Meaning sources ext f variant path unit)
    (hload : ∀ q, ReflTransGen (Imports sources ext) path q →
      Package.load sources' ext q = Package.load sources ext q) :
    Meaning sources' ext f variant path unit := by
  induction h with
  | @built path package unit unitOf load imports built ih =>
    refine .built unitOf ((hload path .refl).trans load) (fun d hd => ?_) built
    have hpd : Imports sources ext path d := (imports_iff_of_load load).2 hd
    exact ih d hd fun q hq => hload q (.head hpd hq)

theorem Meaning.acyclic (h : Meaning sources ext f variant path unit) :
    ¬ TransGen (Imports sources ext) path path := by
  induction h with
  | @built path package unit unitOf load imports built ih =>
    intro hcycle
    -- a cycle through the package is one through the import it begins with
    obtain ⟨d, hd, hback⟩ := TransGen.head'_iff.1 hcycle
    exact ih d ((imports_iff_of_load load).1 hd) (TransGen.tail' hback hd)

theorem Meaning.isAccepted (h : Meaning sources ext f variant path unit) :
    IsAccepted sources ext f variant path := by
  intro package unitOf' load' imports'
  cases h with
  | built unitOf load imports built =>
    rw [load] at load'
    cases load'
    have hunits := List.map_congr_left fun d hd => (imports d hd).unique (imports' d hd)
    exact ⟨unit, hunits ▸ built⟩

section faithful

variable (hf : Faithful f)
include hf

theorem Meaning.importPath (h : Meaning sources ext f variant path unit) :
    unit.importPath = path := by
  cases h with
  | built unitOf load imports built => exact (hf _ _ built).1.trans (Package.load_importPath load)

/-- The unit of a package names exactly its imports, in their order. -/
theorem Meaning.dependencies (h : Meaning sources ext f variant path unit) {package : Package}
    (hload : Package.load sources ext path = .ok package) :
    unit.dependencies = package.imports := by
  cases h with
  | built unitOf load imports built =>
    rw [load] at hload
    cases hload
    have hpaths : ∀ d ∈ package.imports, (unitOf d).importPath = d :=
      fun d hd => (imports d hd).importPath hf
    calc unit.dependencies = (package.imports.map unitOf).map CompiledUnit.importPath :=
          (hf _ _ built).2
      _ = package.imports.map fun d => (unitOf d).importPath := List.map_map
      _ = package.imports := (List.map_congr_left hpaths).trans (List.map_id' _)

theorem Meaning.mem_dependencies (h : Meaning sources ext f variant path unit) :
    dependency ∈ unit.dependencies ↔ Imports sources ext path dependency := by
  obtain ⟨package, hload⟩ := h.loads
  rw [h.dependencies hf hload, imports_iff_of_load hload]

end faithful

theorem Buildable.of_meanings {roots : List String}
    (h : ∀ p, Needs sources ext roots p → ∃ unit, Meaning sources ext f variant p unit) :
    Buildable sources ext f variant roots where
  loads p hp := (h p hp).elim fun _ hm => hm.loads
  acyclic p hp := (h p hp).elim fun _ hm => hm.acyclic
  accepted p hp := (h p hp).elim fun _ hm => hm.isAccepted

theorem Meaning.buildable (h : Meaning sources ext f variant path unit) :
    Buildable sources ext f variant [path] := by
  apply Buildable.of_meanings
  intro p hp
  exact h.of_reaches (needs_singleton.1 hp)

/-- A package that is accepted with any dependencies has a unit if its imports have one. -/
theorem Meaning.exists_of_imports {package : Package}
    (hload : Package.load sources ext path = .ok package)
    (himports : ∀ d ∈ package.imports, ∃ unit, Meaning sources ext f variant d unit)
    (hbuilt : ∀ dependencies, ∃ unit, f ⟨package, dependencies, variant⟩ = .built unit) :
    ∃ unit, Meaning sources ext f variant path unit := by
  have hunits : ∀ d, ∃ unit, d ∈ package.imports → Meaning sources ext f variant d unit := by
    intro d
    by_cases hd : d ∈ package.imports
    · obtain ⟨unit, hunit⟩ := himports d hd
      exact ⟨unit, fun _ => hunit⟩
    · exact ⟨⟨d, .empty, []⟩, fun h => absurd h hd⟩
  obtain ⟨unitOf, hunitOf⟩ := Classical.skolem.1 hunits
  obtain ⟨unit, hunit⟩ := hbuilt (package.imports.map unitOf)
  exact ⟨unit, .built unitOf hload hunitOf hunit⟩

end meanings

end Playground
