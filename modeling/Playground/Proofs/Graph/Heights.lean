import Playground.Proofs.Graph.Levels

/-!
# Levels are heights

The height of a package is the number of edges of the longest chain of dependencies below it.  What
remains after `k` levels are the packages with a chain of `k` edges below them, and those of them
that are ready have no longer one, so the levels of a graph are its packages by height
(`mem_wave_iff`).  A list of levels is settled by that and by the order within each level
(`IsLevelling.unique`); the order in which packages and edges were added does not matter, nor does
adding them again (`waves_ofCalls`).
-/

namespace Playground.ImportGraph

open Relation

variable {g g' : ImportGraph} {path x y d : String} {remaining wave : List String}
  {waves waves' : List (List String)} {k m n : Nat}

/-! ### Graphs that calls make -/

/-- What adds to a graph. -/
inductive Call where
  | package (path : String)
  | edge (dependency dependent : String)

namespace Call

def apply (g : ImportGraph) : Call → ImportGraph
  | package path => g.addPackage path
  | edge dependency dependent => g.addEdge dependency dependent

def paths : Call → List String
  | package path => [path]
  | edge dependency dependent => [dependency, dependent]

end Call

/-- The graph that some calls make, one after the other. -/
def ofCalls (calls : List Call) : ImportGraph := calls.foldl Call.apply ∅

/-- Some call names a package. -/
def Mentioned (calls : List Call) (x : String) : Prop := ∃ call ∈ calls, x ∈ call.paths

/-- Some call records that `x` imports `y`. -/
def Linked (calls : List Call) (x y : String) : Prop := .edge y x ∈ calls

theorem foldl_apply_spec (calls : List Call) :
    (x ∈ (calls.foldl Call.apply g).nodes ↔ x ∈ g.nodes ∨ Mentioned calls x) ∧
      ((calls.foldl Call.apply g).DependsOn x y ↔ g.DependsOn x y ∨ Linked calls x y) := by
  induction calls generalizing g with
  | nil => simp [Mentioned, Linked]
  | cons call calls ih =>
    obtain ⟨hnodes, hedges⟩ := ih (g := call.apply g)
    rw [List.foldl_cons, hnodes, hedges]
    cases call with
    | package path =>
      rw [Call.apply, mem_nodes_addPackage, dependsOn_addPackage]
      simp [Mentioned, Linked, Call.paths, or_assoc]
    | edge dependency dependent =>
      rw [Call.apply, mem_nodes_addEdge, dependsOn_addEdge]
      simp [Mentioned, Linked, Call.paths, or_assoc, and_comm]

theorem mem_nodes_ofCalls {calls : List Call} : x ∈ (ofCalls calls).nodes ↔ Mentioned calls x := by
  rw [ofCalls, (foldl_apply_spec (y := x) calls).1]
  exact or_iff_right List.not_mem_nil

theorem dependsOn_ofCalls {calls : List Call} :
    (ofCalls calls).DependsOn x y ↔ Linked calls x y := by
  rw [ofCalls, (foldl_apply_spec calls).2]
  exact or_iff_right List.not_mem_nil

/-! ### Heights -/

/-- There is a chain of so many edges below a package. -/
inductive Chain (r : String → String → Prop) : String → Nat → Prop where
  | refl (x : String) : Chain r x 0
  | step {x d : String} {n : Nat} (edge : r x d) (below : Chain r d n) : Chain r x (n + 1)

/-- The longest chain below a package has so many edges. -/
def IsHeight (r : String → String → Prop) (x : String) (n : Nat) : Prop :=
  Chain r x n ∧ ∀ m, Chain r x m → m ≤ n

section heights

variable {r : String → String → Prop}

theorem Chain.mono (h : Chain r x n) (hm : m ≤ n) : Chain r x m := by
  induction h generalizing m with
  | refl x =>
    rw [Nat.le_zero.1 hm]
    exact .refl x
  | @step x d n edge below ih =>
    cases m with
    | zero => exact .refl x
    | succ m => exact .step edge (ih (Nat.le_of_succ_le_succ hm))

theorem chain_succ_iff : Chain r x (n + 1) ↔ ∃ d, r x d ∧ Chain r d n := by
  constructor
  · intro h
    cases h with
    | step edge below => exact ⟨_, edge, below⟩
  · rintro ⟨d, edge, below⟩
    exact .step edge below

theorem isHeight_iff : IsHeight r x n ↔ Chain r x n ∧ ¬ Chain r x (n + 1) := by
  refine and_congr_right fun _ => ⟨fun h hlonger => ?_, fun h m hm => ?_⟩
  · have := h (n + 1) hlonger
    omega
  · by_contra hlt
    exact h (hm.mono (by omega))

theorem IsHeight.unique (h : IsHeight r x m) (h' : IsHeight r x n) : m = n :=
  Nat.le_antisymm (h'.2 m h.1) (h.2 n h'.1)

end heights

/-! ### Levels by height -/

/-- When the packages with a chain of `k` edges remain, the ready ones are those of height `k`, and
the others have a longer chain. -/
theorem mem_readyIn_iff_isHeight
    (hremaining : ∀ x, x ∈ remaining ↔ x ∈ g.nodes ∧ Chain g.DependsOn x k) :
    x ∈ g.readyIn remaining ↔ x ∈ g.nodes ∧ IsHeight g.DependsOn x k := by
  rw [mem_readyIn, hremaining, isHeight_iff, chain_succ_iff, and_assoc]
  refine and_congr_right fun _ => and_congr_right fun _ => ?_
  constructor
  · rintro h ⟨d, hd, hchain⟩
    exact h d hd ((hremaining d).2 ⟨hd.dependency_mem, hchain⟩)
  · intro h d hd hmem
    exact h ⟨d, hd, ((hremaining d).1 hmem).2⟩

theorem mem_blockedIn_iff_chain
    (hremaining : ∀ x, x ∈ remaining ↔ x ∈ g.nodes ∧ Chain g.DependsOn x k) :
    x ∈ g.blockedIn remaining ↔ x ∈ g.nodes ∧ Chain g.DependsOn x (k + 1) := by
  rw [mem_blockedIn, mem_readyIn_iff_isHeight hremaining, hremaining, isHeight_iff]
  constructor
  · rintro ⟨⟨hx, hchain⟩, hnot⟩
    exact ⟨hx, Classical.byContradiction fun hlonger => hnot ⟨hx, hchain, hlonger⟩⟩
  · rintro ⟨hx, hlonger⟩
    exact ⟨⟨hx, hlonger.mono (Nat.le_succ k)⟩, fun h => h.2.2 hlonger⟩

/-- The levels of the packages that have a chain of `k` edges are those of height `k` and more. -/
theorem mem_wave_iff {i : Nat}
    (hremaining : ∀ x, x ∈ remaining ↔ x ∈ g.nodes ∧ Chain g.DependsOn x k)
    (h : g.wavesFrom remaining = some waves) (hi : waves[i]? = some wave) :
    x ∈ wave ↔ x ∈ g.nodes ∧ IsHeight g.DependsOn x (k + i) := by
  induction waves generalizing remaining k i with
  | nil => cases hi
  | cons first waves ih =>
    obtain ⟨hfirst, hrest⟩ := wavesFrom_cons h
    cases i with
    | zero =>
      cases hi
      exact (hfirst x).trans (mem_readyIn_iff_isHeight hremaining)
    | succ i =>
      rw [ih (fun x => mem_blockedIn_iff_chain hremaining) hrest hi, Nat.add_right_comm,
        Nat.add_assoc]

theorem ne_nil_of_wavesFrom (h : g.wavesFrom remaining = some waves) : [] ∉ waves := by
  fun_induction wavesFrom g remaining generalizing waves with
  | case1 =>
    cases h
    exact List.not_mem_nil
  | case2 => cases h
  | case3 remaining hne hready hlt ih =>
    obtain ⟨rest, hrest, rfl⟩ := Option.map_eq_some_iff.1 h
    refine List.not_mem_cons_of_ne_of_not_mem (fun he => hready ?_) (ih hrest)
    rw [← List.perm_nil, he]
    exact (List.mergeSort_perm _ _).symm

theorem pairwise_sortPaths {paths : List String} (h : paths.Nodup) :
    (sortPaths paths).Pairwise (· < ·) := by
  have htrans (a b c : String) (hab : decide (a ≤ b) = true) (hbc : decide (b ≤ c) = true) :
      decide (a ≤ c) = true :=
    decide_eq_true (String.le_trans (of_decide_eq_true hab) (of_decide_eq_true hbc))
  have htotal (a b : String) : (decide (a ≤ b) || decide (b ≤ a)) = true := by
    simpa using String.le_total a b
  have hsorted := List.pairwise_mergeSort htrans htotal paths
  have hnodup : (sortPaths paths).Nodup := (List.mergeSort_perm _ _).nodup_iff.2 h
  exact hsorted.imp₂ (fun a b hle hne => Std.lt_of_le_of_ne (of_decide_eq_true hle) hne) hnodup

theorem pairwise_of_wavesFrom (hnodup : remaining.Nodup)
    (h : g.wavesFrom remaining = some waves) : ∀ wave ∈ waves, wave.Pairwise (· < ·) := by
  fun_induction wavesFrom g remaining generalizing waves with
  | case1 =>
    cases h
    exact fun wave hwave => absurd hwave List.not_mem_nil
  | case2 => cases h
  | case3 remaining hne hready hlt ih =>
    obtain ⟨rest, hrest, rfl⟩ := Option.map_eq_some_iff.1 h
    intro wave hwave
    rcases List.mem_cons.1 hwave with rfl | hwave
    · exact pairwise_sortPaths (hnodup.filter _)
    · exact ih (hnodup.filter _) hrest wave hwave

/-! ### The levels of a graph -/

/-- The nodes by height: each stands in exactly one level, the one of its height, no level is empty,
and each is strictly sorted. -/
structure IsLevelling (nodes : String → Prop) (r : String → String → Prop)
    (waves : List (List String)) : Prop where
  mem_iff : ∀ (k : Nat) (wave : List String), waves[k]? = some wave →
    ∀ x, x ∈ wave ↔ nodes x ∧ IsHeight r x k
  existsUnique : ∀ x, nodes x → ∃! k : Nat, ∃ wave, waves[k]? = some wave ∧ x ∈ wave
  ne_nil : [] ∉ waves
  pairwise : ∀ wave ∈ waves, wave.Pairwise (· < ·)

theorem isLevelling_of_waves (h : g.waves = some waves) :
    IsLevelling (· ∈ g.nodes) g.DependsOn waves := by
  rw [waves_eq] at h
  have hall (x : String) : x ∈ g.nodes ↔ x ∈ g.nodes ∧ Chain g.DependsOn x 0 :=
    (and_iff_left (.refl x)).symm
  have hmem (k : Nat) (wave : List String) (hk : waves[k]? = some wave) (x : String) :
      x ∈ wave ↔ x ∈ g.nodes ∧ IsHeight g.DependsOn x k := by
    rw [mem_wave_iff hall h hk, Nat.zero_add]
  refine ⟨hmem, fun x hx => ?_, ne_nil_of_wavesFrom h, pairwise_of_wavesFrom g.nodup h⟩
  obtain ⟨wave, hwave, hxwave⟩ := List.mem_flatten.1 ((perm_flatten h).mem_iff.2 hx)
  obtain ⟨k, hk⟩ := List.mem_iff_getElem?.1 hwave
  refine ⟨k, ⟨wave, hk, hxwave⟩, ?_⟩
  rintro j ⟨wave', hj, hxwave'⟩
  exact ((hmem j wave' hj x).1 hxwave').2.unique ((hmem k wave hk x).1 hxwave).2

section unique

variable {nodes : String → Prop} {r : String → String → Prop}

theorem IsLevelling.getElem?_eq (h : IsLevelling nodes r waves) (h' : IsLevelling nodes r waves')
    (hk : waves[k]? = some wave) : waves'[k]? = some wave := by
  have hne : wave ≠ [] := fun he => h.ne_nil (he ▸ List.mem_of_getElem? hk)
  obtain ⟨x, hx⟩ := List.exists_mem_of_ne_nil wave hne
  obtain ⟨hnode, hheight⟩ := (h.mem_iff k wave hk x).1 hx
  obtain ⟨j, ⟨wave', hj, hx'⟩, -⟩ := h'.existsUnique x hnode
  have hjk : j = k := ((h'.mem_iff j wave' hj x).1 hx').2.unique hheight
  subst hjk
  have hsame : wave' = wave :=
    (h'.pairwise wave' (List.mem_of_getElem? hj)).eq_of_mem_iff
      (h.pairwise wave (List.mem_of_getElem? hk))
      fun x => (h'.mem_iff j wave' hj x).trans (h.mem_iff j wave hk x).symm
  rw [hj, hsame]

/-- There is one list of levels only. -/
theorem IsLevelling.unique (h : IsLevelling nodes r waves) (h' : IsLevelling nodes r waves') :
    waves = waves' := by
  refine List.ext_getElem? fun k => ?_
  cases hk : waves[k]? with
  | some wave => exact (h.getElem?_eq h' hk).symm
  | none =>
    cases hk' : waves'[k]? with
    | none => rfl
    | some wave => exact hk.symm.trans (h'.getElem?_eq h hk')

end unique

/-- Among some packages, `x` imports `y`. -/
def ImportsAmong (packages : List (String × List String)) (x y : String) : Prop :=
  (∃ imports, (x, imports) ∈ packages ∧ y ∈ imports) ∧ y ∈ packages.map Prod.fst

theorem waves_eq_none_iff : g.waves = none ↔ ∃ p, TransGen g.DependsOn p p := by
  rw [← Option.not_isSome_iff_eq_none, isSome_waves_iff, IsAcyclic, not_forall_not]

theorem waves_congr (hnodes : ∀ x, x ∈ g'.nodes ↔ x ∈ g.nodes)
    (hedges : ∀ x y, g'.DependsOn x y ↔ g.DependsOn x y) : g'.waves = g.waves := by
  have hnode : (· ∈ g'.nodes) = (· ∈ g.nodes) := funext fun x => propext (hnodes x)
  have hedge : g'.DependsOn = g.DependsOn := funext fun x => funext fun y => propext (hedges x y)
  have hnone : g'.waves = none ↔ g.waves = none := by
    rw [waves_eq_none_iff, waves_eq_none_iff, hedge]
  cases h : g.waves with
  | none => exact hnone.2 h
  | some waves =>
    obtain ⟨waves', h'⟩ := Option.ne_none_iff_exists'.1 fun he => by
      rw [hnone.1 he] at h
      cases h
    have hlevels := isLevelling_of_waves h'
    rw [hnode, hedge] at hlevels
    rw [h', hlevels.unique (isLevelling_of_waves h)]

/-- Whatever calls made a graph, it has no levels exactly if the edges they record have a cycle.
Otherwise its levels are the packages that the calls name, by the length of the longest chain of
dependencies below each: every package stands in exactly one level, no level is empty, and each is
strictly sorted.  They depend on the packages and edges alone, not on the calls.  The graph of some
packages is refused exactly if it has no levels, which is when they import each other in a cycle. -/
theorem waves_ofCalls (calls : List Call) :
    ((ofCalls calls).waves = none ↔ ∃ p, TransGen (Linked calls) p p) ∧
    (∀ waves, (ofCalls calls).waves = some waves →
      IsLevelling (Mentioned calls) (Linked calls) waves) ∧
    (∀ calls' : List Call, (∀ x, Mentioned calls' x ↔ Mentioned calls x) →
      (∀ x y, Linked calls' x y ↔ Linked calls x y) →
        (ofCalls calls').waves = (ofCalls calls).waves) ∧
    ∀ packages : List (String × List String),
      (ofPackages? packages = none ↔ (ofImports packages).waves = none) ∧
      (ofPackages? packages = none ↔ ∃ p, TransGen (ImportsAmong packages) p p) := by
  have hedges : (ofCalls calls).DependsOn = Linked calls :=
    funext fun x => funext fun y => propext dependsOn_ofCalls
  have hnodes : (· ∈ (ofCalls calls).nodes) = Mentioned calls :=
    funext fun x => propext mem_nodes_ofCalls
  refine ⟨?_, fun waves h => ?_, fun calls' hmentioned hlinked => ?_, fun packages => ?_⟩
  · rw [waves_eq_none_iff, hedges]
  · have hlevels := isLevelling_of_waves h
    rwa [hnodes, hedges] at hlevels
  · refine waves_congr (fun x => ?_) fun x y => ?_
    · rw [mem_nodes_ofCalls, mem_nodes_ofCalls, hmentioned]
    · rw [dependsOn_ofCalls, dependsOn_ofCalls, hlinked]
  · have hrefused : ofPackages? packages = none ↔ (ofImports packages).waves = none := by
      rw [ofPackages?_eq_none_iff, waves_eq_none_iff, IsAcyclic, not_forall_not]
    have himports : (ofImports packages).DependsOn = ImportsAmong packages :=
      funext fun x => funext fun y => propext dependsOn_ofImports
    rw [← himports]
    exact ⟨hrefused, hrefused.trans waves_eq_none_iff⟩

end Playground.ImportGraph
