import Playground.Proofs.Build.Meaning
import Playground.Proofs.Graph.Closure
import Playground.Proofs.Named

/-!
# Sound sets of units

A set of units is sound when all its units are the meanings of their packages and everything they
need is in the set.  The dependencies that sound units name are the imports of their packages, so
the closure of some roots in the graph of the units is what the roots need.
-/

namespace Playground

open Relation

variable {sources : View} {ext : String} {f : CompileRequest → Outcome} {variant : Variant}

/-- All units are meanings, and what they need is among them. -/
structure UnitSet.IsSound (sources : View) (ext : String) (f : CompileRequest → Outcome)
    (variant : Variant) (units : UnitSet) : Prop where
  meaning : ∀ p unit, units[p]? = some unit → Meaning sources ext f variant p unit
  closed : ∀ p ∈ units, ∀ d, Imports sources ext p d → d ∈ units

/-- A set of units holds exactly what the roots need, and all its units are meanings. -/
structure UnitSet.IsMeaningOf (sources : View) (ext : String) (f : CompileRequest → Outcome)
    (variant : Variant) (roots : List String) (units : UnitSet) : Prop where
  mem : ∀ p, p ∈ units ↔ Needs sources ext roots p
  meaning : ∀ p unit, units[p]? = some unit → Meaning sources ext f variant p unit

theorem UnitSet.IsMeaningOf.getElem? {roots : List String} {units : UnitSet} {path : String}
    {unit : CompiledUnit} (h : UnitSet.IsMeaningOf sources ext f variant roots units)
    (hp : Needs sources ext roots path) (hm : Meaning sources ext f variant path unit) :
    units[path]? = some unit := by
  obtain ⟨unit', hunit'⟩ := Named.mem_iff.1 ((h.mem path).2 hp)
  rw [hm.unique (h.meaning path unit' hunit')]
  exact hunit'

theorem UnitSet.IsMeaningOf.unique {roots : List String} {units units' : UnitSet}
    (h : UnitSet.IsMeaningOf sources ext f variant roots units)
    (h' : UnitSet.IsMeaningOf sources ext f variant roots units') : units = units' := by
  have agree {a b : UnitSet} (ha : UnitSet.IsMeaningOf sources ext f variant roots a)
      (hb : UnitSet.IsMeaningOf sources ext f variant roots b) (p : String) (unit : CompiledUnit)
      (hunit : a[p]? = some unit) : b[p]? = some unit :=
    hb.getElem? ((ha.mem p).1 (Named.mem_of_getElem? hunit)) (ha.meaning p unit hunit)
  exact Named.ext fun p unit => ⟨agree h h' p unit, agree h' h p unit⟩

theorem UnitSet.IsMeaningOf.buildable {roots : List String} {units : UnitSet}
    (h : UnitSet.IsMeaningOf sources ext f variant roots units) :
    Buildable sources ext f variant roots := by
  apply Buildable.of_meanings
  intro p hp
  obtain ⟨unit, hunit⟩ := Named.mem_iff.1 ((h.mem p).2 hp)
  exact ⟨unit, h.meaning p unit hunit⟩

theorem UnitSet.isSound_empty : UnitSet.IsSound sources ext f variant ∅ where
  meaning p unit h := by
    rw [Std.ExtTreeMap.getElem?_empty] at h
    cases h
  closed p h := absurd h Std.ExtTreeMap.not_mem_empty

section units

variable {built units : UnitSet} {path : String} {unit : CompiledUnit}

/-! ### Units under their import paths -/

theorem Pass.mem_addUnits {us : List CompiledUnit} :
    path ∈ Pass.addUnits built us ↔ path ∈ built ∨ ∃ u ∈ us, u.importPath = path := by
  unfold Pass.addUnits
  induction us generalizing built with
  | nil => simp
  | cons u us ih =>
    rw [List.foldl_cons, ih, Named.mem_insert]
    constructor
    · rintro ((rfl | h) | ⟨v, hv, rfl⟩)
      · exact .inr ⟨u, List.mem_cons_self, rfl⟩
      · exact .inl h
      · exact .inr ⟨v, List.mem_cons_of_mem _ hv, rfl⟩
    · rintro (h | ⟨v, hv, rfl⟩)
      · exact .inl (.inr h)
      · rcases List.mem_cons.1 hv with rfl | hv
        · exact .inl (.inl rfl)
        · exact .inr ⟨v, hv, rfl⟩

theorem Pass.of_getElem?_addUnits {us : List CompiledUnit}
    (h : (Pass.addUnits built us)[path]? = some unit) :
    built[path]? = some unit ∨ unit ∈ us ∧ unit.importPath = path := by
  unfold Pass.addUnits at h
  induction us generalizing built with
  | nil => exact .inl h
  | cons u us ih =>
    rw [List.foldl_cons] at h
    rcases ih h with h | ⟨hmem, hpath⟩
    · rw [Named.getElem?_insert] at h
      split at h
      · rename_i he
        cases h
        exact .inr ⟨List.mem_cons_self, he.symm⟩
      · exact .inl h
    · exact .inr ⟨List.mem_cons_of_mem _ hmem, hpath⟩

/-! ### The units that some roots need -/

theorem UnitSet.mem_nodes_of_mem (h : path ∈ built) :
    path ∈ (ImportGraph.ofUnits built.dependencies).nodes := by
  obtain ⟨unit, hunit⟩ := Named.mem_iff.1 h
  exact ImportGraph.mem_nodes_ofUnits.2
    ⟨(path, unit.dependencies), Named.mem_map_toList.2 ⟨unit, hunit, rfl⟩, .inl rfl⟩

/-- The dependencies that sound units name are the imports of their packages. -/
theorem UnitSet.IsSound.dependsOn_iff {x y : String} (hf : Faithful f)
    (h : UnitSet.IsSound sources ext f variant built) :
    (ImportGraph.ofUnits built.dependencies).DependsOn x y ↔
      x ∈ built ∧ Imports sources ext x y := by
  rw [ImportGraph.dependsOn_ofUnits]
  constructor
  · rintro ⟨dependencies, hmem, hy⟩
    obtain ⟨unit, hunit, rfl⟩ := Named.mem_map_toList.1 hmem
    exact ⟨Named.mem_of_getElem? hunit, ((h.meaning x unit hunit).mem_dependencies hf).1 hy⟩
  · rintro ⟨hx, hy⟩
    obtain ⟨unit, hunit⟩ := Named.mem_iff.1 hx
    exact ⟨unit.dependencies, Named.mem_map_toList.2 ⟨unit, hunit, rfl⟩,
      ((h.meaning x unit hunit).mem_dependencies hf).2 hy⟩

theorem UnitSet.IsSound.of_reaches {x y : String}
    (h : UnitSet.IsSound sources ext f variant built) (hx : x ∈ built)
    (hxy : ReflTransGen (Imports sources ext) x y) : y ∈ built := by
  induction hxy with
  | refl => exact hx
  | tail _ hd ih => exact h.closed _ ih _ hd

theorem UnitSet.IsSound.mem_closure {x : String} {roots : List String} (hf : Faithful f)
    (h : UnitSet.IsSound sources ext f variant built) (hroots : ∀ r ∈ roots, r ∈ built) :
    x ∈ (ImportGraph.ofUnits built.dependencies).closure roots ↔ Needs sources ext roots x := by
  rw [ImportGraph.mem_closure_iff]
  constructor
  · rintro ⟨r, hr, -, hrx⟩
    exact ⟨r, hr, ReflTransGen.mono (fun _ _ hxy => ((h.dependsOn_iff hf).1 hxy).2) r x hrx⟩
  · rintro ⟨r, hr, hrx⟩
    refine ⟨r, hr, UnitSet.mem_nodes_of_mem (hroots r hr), ?_⟩
    induction hrx with
    | refl => exact .refl
    | tail hrx hd ih =>
      exact ih.tail ((h.dependsOn_iff hf).2 ⟨h.of_reaches (hroots r hr) hrx, hd⟩)

theorem Pass.foldlM_closure {paths : List String} (result : UnitSet)
    (h : ∀ p ∈ paths, p ∈ built) :
    ∃ result', (paths.foldlM (fun result path =>
        match built[path]? with
        | some unit => Except.ok (result.insert path unit)
        | none => .error (BuildError.load (.notFound path))) result) = .ok result' ∧
      ∀ p unit, result'[p]? = some unit ↔
        p ∈ paths ∧ built[p]? = some unit ∨ p ∉ paths ∧ result[p]? = some unit := by
  induction paths generalizing result with
  | nil => exact ⟨result, rfl, fun p unit => by simp⟩
  | cons path paths ih =>
    obtain ⟨unit, hunit⟩ := Named.mem_iff.1 (h path List.mem_cons_self)
    obtain ⟨result', hfold, hresult⟩ := ih (result.insert path unit) fun p hp =>
      h p (List.mem_cons_of_mem _ hp)
    refine ⟨result', ?_, fun p u => ?_⟩
    · rw [List.foldlM_cons, hunit]
      exact hfold
    · rw [hresult, Named.getElem?_insert, List.mem_cons]
      by_cases hp : p = path
      · subst hp
        by_cases hps : p ∈ paths <;> simp [hps, hunit]
      · simp [hp]

theorem Pass.closure_eq {roots : List String} {paths : List String}
    (hpaths : (ImportGraph.ofUnits built.dependencies).closure roots = paths)
    (hmem : ∀ p ∈ paths, p ∈ built) :
    ∃ result, Pass.closure built roots = .ok result ∧
      ∀ p unit, result[p]? = some unit ↔ p ∈ paths ∧ built[p]? = some unit := by
  obtain ⟨result, hfold, hresult⟩ := Pass.foldlM_closure ∅ hmem
  refine ⟨result, ?_, fun p unit => ?_⟩
  · rw [closure, hpaths]
    exact hfold
  · rw [hresult, Std.ExtTreeMap.getElem?_empty]
    simp

/-- The closure of some roots that have sound units is what the roots need. -/
theorem UnitSet.IsSound.closure_eq {roots : List String} (hf : Faithful f)
    (h : UnitSet.IsSound sources ext f variant built) (hroots : ∀ r ∈ roots, r ∈ built) :
    ∃ result, Pass.closure built roots = .ok result ∧
      UnitSet.IsMeaningOf sources ext f variant roots result := by
  have hneeds {p : String} := h.mem_closure (x := p) hf hroots
  have hmem {p : String} (hp : Needs sources ext roots p) : p ∈ built := by
    obtain ⟨r, hr, hrp⟩ := hp
    exact h.of_reaches (hroots r hr) hrp
  obtain ⟨result, hresult, hget⟩ := Pass.closure_eq rfl fun p hp => hmem (hneeds.1 hp)
  refine ⟨result, hresult, ?_, ?_⟩
  · intro p
    rw [Named.mem_iff, ← hneeds]
    constructor
    · rintro ⟨unit, hunit⟩
      exact ((hget p unit).1 hunit).1
    · intro hp
      obtain ⟨unit, hunit⟩ := Named.mem_iff.1 (hmem (hneeds.1 hp))
      exact ⟨unit, (hget p unit).2 ⟨hp, hunit⟩⟩
  · intro p unit hunit
    exact h.meaning p unit ((hget p unit).1 hunit).2

end units

end Playground
