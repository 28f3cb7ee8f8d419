import Mathlib.Data.Fintype.EquivFin
import Mathlib.Data.Fintype.Sets
import Mathlib.Order.WellFounded
import Playground.Proofs.Graph.Closure
import Playground.Proofs.Graph.Counting

/-!
# Levels

A graph has levels exactly when it has no cycle (`isSome_waves_iff`).  If packages remain and none
of them is ready, each waits for another one that remains, and a finite graph without cycles has no
such set; on the other hand a set of packages that wait for each other is never ready, so no level
ever takes one of them.
-/

namespace Playground.ImportGraph

open Relation

variable {g : ImportGraph} {x : String} {remaining wave : List String} {waves : List (List String)}

/-- No package needs itself. -/
def IsAcyclic (g : ImportGraph) : Prop := ∀ p, ¬ TransGen g.DependsOn p p

theorem mem_readyIn :
    x ∈ g.readyIn remaining ↔ x ∈ remaining ∧ ∀ d, g.DependsOn x d → d ∉ remaining := by
  rw [readyIn, List.mem_filter, isReady_iff]

theorem mem_blockedIn :
    x ∈ g.blockedIn remaining ↔ x ∈ remaining ∧ x ∉ g.readyIn remaining := by
  rw [blockedIn, List.mem_filter, readyIn, List.mem_filter, Bool.not_eq_true', not_and,
    Bool.not_eq_true]
  exact and_congr_right fun h => ⟨fun hb _ => hb, fun hb => hb h⟩

/-! ### What the levels are -/

/-- The first level is what is ready, and the others are the levels of what is not. -/
theorem wavesFrom_cons (h : g.wavesFrom remaining = some (wave :: waves)) :
    (∀ x, x ∈ wave ↔ x ∈ g.readyIn remaining) ∧
      g.wavesFrom (g.blockedIn remaining) = some waves := by
  rw [wavesFrom] at h
  split at h
  · cases h
  · split at h
    · cases h
    · obtain ⟨ws, hws, he⟩ := Option.map_eq_some_iff.1 h
      cases he
      exact ⟨fun x => List.mem_mergeSort, hws⟩

theorem eq_nil_of_wavesFrom (h : g.wavesFrom remaining = some []) : remaining = [] := by
  rw [wavesFrom] at h
  split at h
  · assumption
  · split at h
    · cases h
    · obtain ⟨ws, _, he⟩ := Option.map_eq_some_iff.1 h
      cases he

theorem perm_wave (h : g.wavesFrom remaining = some (wave :: waves)) :
    wave.Perm (g.readyIn remaining) := by
  rw [wavesFrom] at h
  split at h
  · cases h
  · split at h
    · cases h
    · obtain ⟨ws, -, he⟩ := Option.map_eq_some_iff.1 h
      cases he
      exact List.mergeSort_perm _ _

theorem perm_flatten (h : g.wavesFrom remaining = some waves) : waves.flatten.Perm remaining := by
  induction waves generalizing remaining with
  | nil =>
    rw [eq_nil_of_wavesFrom h]
    exact .nil
  | cons wave waves ih =>
    have hrest := ih (wavesFrom_cons h).2
    calc (wave :: waves).flatten
        = wave ++ waves.flatten := List.flatten_cons
      _ |>.Perm (g.readyIn remaining ++ g.blockedIn remaining) := (perm_wave h).append hrest
      _ |>.Perm remaining := List.filter_append_perm (g.isReady remaining) remaining

/-- A dependency that remains stands in the levels before what depends on it. -/
theorem dependency_before {d : String} {before rest : List String}
    (h : g.wavesFrom remaining = some waves) (he : waves.flatten = before ++ x :: rest)
    (hx : g.DependsOn x d) (hd : d ∈ remaining) : d ∈ before := by
  induction waves generalizing remaining before with
  | nil =>
    have := congrArg List.length he
    simp at this
  | cons wave waves ih =>
    obtain ⟨hwave, hrest⟩ := wavesFrom_cons h
    have hblocked : d ∉ wave → d ∈ g.blockedIn remaining := fun hnot =>
      mem_blockedIn.2 ⟨hd, fun hready => hnot ((hwave d).2 hready)⟩
    rw [List.flatten_cons, List.append_eq_append_iff] at he
    rcases he with ⟨before', rfl, he⟩ | ⟨rest', rfl, he⟩
    · by_cases hmem : d ∈ wave
      · exact List.mem_append_left _ hmem
      · exact List.mem_append_right _ (ih hrest he (hblocked hmem))
    · cases rest' with
      | nil =>
        rw [List.append_nil] at hblocked
        by_contra hnot
        have hnone : d ∈ ([] : List String) := ih hrest he.symm (hblocked hnot)
        cases hnone
      | cons y rest' =>
        -- the package itself is of the first level, so nothing that it depends on remains
        obtain ⟨rfl, -⟩ := List.cons.inj he
        have hready := (hwave x).1 (List.mem_append_right _ List.mem_cons_self)
        exact absurd hd ((mem_readyIn.1 hready).2 d hx)

/-! ### When there are levels -/

/-- Of two packages that remain, the first is needed by the second. -/
def IsBelow (g : ImportGraph) (remaining : List String) (a b : { x // x ∈ remaining }) : Prop :=
  TransGen g.DependsOn b.1 a.1

theorem wellFounded_isBelow (hg : g.IsAcyclic) : WellFounded (g.IsBelow remaining) := by
  have : IsTrans _ (g.IsBelow remaining) := ⟨fun _ _ _ hab hbc => hbc.trans hab⟩
  have : Std.Irrefl (g.IsBelow remaining) := ⟨fun a => hg a.1⟩
  exact Finite.wellFounded_of_trans_of_irrefl _

theorem readyIn_ne_nil (hg : g.IsAcyclic) (h : remaining ≠ []) : g.readyIn remaining ≠ [] := by
  obtain ⟨a, ha⟩ := List.exists_mem_of_ne_nil _ h
  obtain ⟨m, -, hm⟩ := (wellFounded_isBelow hg).has_min Set.univ ⟨⟨a, ha⟩, trivial⟩
  refine List.ne_nil_of_mem (mem_readyIn.2 ⟨m.2, fun d hd hmem => ?_⟩)
  exact hm ⟨d, hmem⟩ trivial (.single hd)

theorem isSome_wavesFrom (hg : g.IsAcyclic) (remaining : List String) :
    (g.wavesFrom remaining).isSome := by
  fun_induction g.wavesFrom remaining with
  | case1 => rfl
  | case2 remaining hne hready => exact absurd hready (readyIn_ne_nil hg hne)
  | case3 remaining hne hready hlt ih => rwa [Option.isSome_map]

/-- Packages that wait for each other are in no level. -/
theorem notMem_of_wavesFrom (h : g.wavesFrom remaining = some waves) (cycle : Set String)
    (hcycle : ∀ p ∈ cycle, p ∈ remaining ∧ ∃ d ∈ cycle, g.DependsOn p d) : x ∉ cycle := by
  induction waves generalizing remaining with
  | nil =>
    intro hx
    have := (hcycle x hx).1
    rw [eq_nil_of_wavesFrom h] at this
    exact List.not_mem_nil this
  | cons wave waves ih =>
    refine ih (wavesFrom_cons h).2 fun p hp => ?_
    obtain ⟨hmem, d, hd, hpd⟩ := hcycle p hp
    refine ⟨mem_blockedIn.2 ⟨hmem, fun hready => ?_⟩, d, hd, hpd⟩
    exact (mem_readyIn.1 hready).2 d hpd (hcycle d hd).1

/-- A graph has levels exactly when it has no cycle. -/
theorem isSome_waves_iff : g.waves.isSome ↔ g.IsAcyclic := by
  constructor
  · intro h p hp
    obtain ⟨waves, hw⟩ := Option.isSome_iff_exists.1 h
    rw [waves_eq] at hw
    refine notMem_of_wavesFrom hw (fun p => TransGen g.DependsOn p p) (fun q hq => ?_) hp
    obtain ⟨d, hqd, hdq⟩ := TransGen.head'_iff.1 hq
    exact ⟨hqd.dependent_mem, d, TransGen.tail' hdq hqd, hqd⟩
  · intro h
    rw [waves_eq]
    exact isSome_wavesFrom h _

/-- A package on a cycle is what one of its dependencies needs. -/
theorem hasCycle_iff : g.hasCycle = true ↔ ¬ g.IsAcyclic := by
  have hcycle (p : String) : p ∈ g.closure (g.dependenciesOf p) ↔ TransGen g.DependsOn p p := by
    rw [mem_closure_iff, TransGen.head'_iff]
    constructor
    · rintro ⟨d, hd, -, hdp⟩
      exact ⟨d, mem_dependenciesOf.1 hd, hdp⟩
    · rintro ⟨d, hd, hdp⟩
      exact ⟨d, mem_dependenciesOf.2 hd, hd.dependency_mem, hdp⟩
  simp only [hasCycle, List.any_eq_true, decide_eq_true_eq, hcycle, IsAcyclic, not_forall, not_not]
  constructor
  · rintro ⟨p, -, hp⟩
    exact ⟨p, hp⟩
  · rintro ⟨p, hp⟩
    obtain ⟨d, hd, -⟩ := TransGen.head'_iff.1 hp
    exact ⟨p, hd.dependent_mem, hp⟩

theorem ofPackages?_eq_none_iff {packages : List (String × List String)} :
    ofPackages? packages = none ↔ ¬ (ofImports packages).IsAcyclic := by
  rw [← hasCycle_iff, ofPackages?]
  split <;> simp_all

theorem ofPackages?_bind_waves (packages : List (String × List String)) :
    (ofPackages? packages).bind ImportGraph.waves = (ofImports packages).waves := by
  unfold ofPackages?
  dsimp only
  split
  · rename_i hcycle
    rw [hasCycle_iff, ← isSome_waves_iff, Option.not_isSome_iff_eq_none] at hcycle
    rw [hcycle, Option.bind_none]
  · rfl

end Playground.ImportGraph
