import Mathlib.Logic.Relation
import Playground.Graph

/-!
# What a graph of packages records

`g.DependsOn path dependency` says that the graph holds the edge from `dependency` to `path`.  The
statements below give the packages and the edges of the graphs that are built from packages
(`mem_nodes_ofImports`, `dependsOn_ofImports`) and from units (`mem_nodes_ofUnits`,
`dependsOn_ofUnits`); nothing else about their construction is used later.
-/

namespace Playground.ImportGraph

variable {g : ImportGraph} {path dependency x y : String}

/-- The graph records that `path` imports `dependency`. -/
def DependsOn (g : ImportGraph) (path dependency : String) : Prop :=
  (⟨dependency, path⟩ : ImportEdge) ∈ g.edges

theorem DependsOn.dependency_mem (h : g.DependsOn path dependency) : dependency ∈ g.nodes :=
  g.dependency_mem _ h

theorem DependsOn.dependent_mem (h : g.DependsOn path dependency) : path ∈ g.nodes :=
  g.dependent_mem _ h

theorem mem_dependenciesOf : dependency ∈ g.dependenciesOf path ↔ g.DependsOn path dependency := by
  unfold dependenciesOf DependsOn
  rw [List.mem_map]
  constructor
  · rintro ⟨⟨d, p⟩, he, rfl⟩
    obtain ⟨he, hp⟩ := List.mem_filter.1 he
    rw [decide_eq_true_eq] at hp
    exact hp ▸ he
  · intro h
    exact ⟨⟨dependency, path⟩, List.mem_filter.2 ⟨h, by simp⟩, rfl⟩

/-! ### One package, one edge -/

theorem dependsOn_addPackage : (g.addPackage path).DependsOn x y ↔ g.DependsOn x y := by
  unfold DependsOn
  rw [edges_addPackage]

theorem mem_nodes_addEdge :
    x ∈ (g.addEdge dependency path).nodes ↔ x ∈ g.nodes ∨ x = dependency ∨ x = path := by
  have h : (g.addEdge dependency path).nodes =
      ((g.addPackage dependency).addPackage path).nodes := by
    unfold addEdge
    dsimp only
    split <;> rfl
  rw [h, mem_nodes_addPackage, mem_nodes_addPackage, or_assoc]

theorem mem_nodes_addEdge_of_mem (hd : dependency ∈ g.nodes) (hp : path ∈ g.nodes) :
    x ∈ (g.addEdge dependency path).nodes ↔ x ∈ g.nodes := by
  rw [mem_nodes_addEdge]
  constructor
  · rintro (h | rfl | rfl) <;> assumption
  · exact .inl

theorem dependsOn_addEdge :
    (g.addEdge dependency path).DependsOn x y ↔ g.DependsOn x y ∨ x = path ∧ y = dependency := by
  unfold DependsOn addEdge
  dsimp only
  split
  · rename_i h
    rw [edges_addPackage, edges_addPackage] at h ⊢
    constructor
    · exact .inl
    · rintro (h' | ⟨rfl, rfl⟩)
      · exact h'
      · exact h
  · rw [List.mem_append, edges_addPackage, edges_addPackage, List.mem_singleton,
      ImportEdge.mk.injEq, and_comm (a := y = dependency)]

/-! ### The graph of some packages -/

theorem mem_nodes_addImports {imports : List String} (hp : path ∈ g.nodes) :
    x ∈ (g.addImports path imports).nodes ↔ x ∈ g.nodes := by
  unfold addImports
  induction imports generalizing g with
  | nil => rfl
  | cons d imports ih =>
    rw [List.foldl_cons]
    split
    · rename_i hd
      rw [ih ((mem_nodes_addEdge_of_mem hd hp).2 hp), mem_nodes_addEdge_of_mem hd hp]
    · exact ih hp

theorem dependsOn_addImports {imports : List String} (hp : path ∈ g.nodes) :
    (g.addImports path imports).DependsOn x y ↔
      g.DependsOn x y ∨ x = path ∧ y ∈ imports ∧ y ∈ g.nodes := by
  unfold addImports
  induction imports generalizing g with
  | nil => simp
  | cons d imports ih =>
    rw [List.foldl_cons]
    split
    · rename_i hd
      rw [ih ((mem_nodes_addEdge_of_mem hd hp).2 hp), dependsOn_addEdge,
        mem_nodes_addEdge_of_mem hd hp, List.mem_cons]
      constructor
      · rintro ((h | ⟨rfl, rfl⟩) | ⟨rfl, h, hy⟩)
        · exact .inl h
        · exact .inr ⟨rfl, .inl rfl, hd⟩
        · exact .inr ⟨rfl, .inr h, hy⟩
      · rintro (h | ⟨rfl, rfl | h, hy⟩)
        · exact .inl (.inl h)
        · exact .inl (.inr ⟨rfl, rfl⟩)
        · exact .inr ⟨rfl, h, hy⟩
    · rename_i hd
      rw [ih hp, List.mem_cons]
      constructor
      · rintro (h | ⟨rfl, h, hy⟩)
        · exact .inl h
        · exact .inr ⟨rfl, .inr h, hy⟩
      · rintro (h | ⟨rfl, rfl | h, hy⟩)
        · exact .inl h
        · exact absurd hy hd
        · exact .inr ⟨rfl, h, hy⟩

section packages

variable {packages : List (String × List String)}

theorem mem_nodes_addPackages :
    x ∈ (packages.foldl (fun g (path, _) => g.addPackage path) g).nodes ↔
      x ∈ g.nodes ∨ x ∈ packages.map Prod.fst := by
  induction packages generalizing g with
  | nil => simp
  | cons package packages ih =>
    rw [List.foldl_cons, ih, mem_nodes_addPackage, List.map_cons, List.mem_cons, or_assoc]

theorem dependsOn_addPackages :
    (packages.foldl (fun g (path, _) => g.addPackage path) g).DependsOn x y ↔
      g.DependsOn x y := by
  induction packages generalizing g with
  | nil => rfl
  | cons package packages ih => rw [List.foldl_cons, ih, dependsOn_addPackage]

theorem addAllImports_spec (hp : ∀ p ∈ packages.map Prod.fst, p ∈ g.nodes) :
    (x ∈ (packages.foldl (fun g (path, imports) => g.addImports path imports) g).nodes ↔
      x ∈ g.nodes) ∧
    ((packages.foldl (fun g (path, imports) => g.addImports path imports) g).DependsOn x y ↔
      g.DependsOn x y ∨ (∃ imports, (x, imports) ∈ packages ∧ y ∈ imports) ∧ y ∈ g.nodes) := by
  induction packages generalizing g with
  | nil => simp
  | cons package packages ih =>
    obtain ⟨path, imports⟩ := package
    have hpath : path ∈ g.nodes := hp path List.mem_cons_self
    have hrest : ∀ p ∈ packages.map Prod.fst, p ∈ (g.addImports path imports).nodes :=
      fun p h => (mem_nodes_addImports hpath).2 (hp p (List.mem_cons_of_mem _ h))
    obtain ⟨hn, hd⟩ := ih hrest
    rw [List.foldl_cons]
    refine ⟨hn.trans (mem_nodes_addImports hpath), hd.trans ?_⟩
    rw [dependsOn_addImports hpath, mem_nodes_addImports hpath]
    constructor
    · rintro ((h | ⟨rfl, h, hy⟩) | ⟨⟨js, hjs, h⟩, hy⟩)
      · exact .inl h
      · exact .inr ⟨⟨imports, List.mem_cons_self, h⟩, hy⟩
      · exact .inr ⟨⟨js, List.mem_cons_of_mem _ hjs, h⟩, hy⟩
    · rintro (h | ⟨⟨js, hjs, h⟩, hy⟩)
      · exact .inl (.inl h)
      · rcases List.mem_cons.1 hjs with e | hjs
        · cases e
          exact .inl (.inr ⟨rfl, h, hy⟩)
        · exact .inr ⟨⟨js, hjs, h⟩, hy⟩

theorem addPackages_nodes :
    ∀ p ∈ packages.map Prod.fst,
      p ∈ (packages.foldl (fun g (path, _) => g.addPackage path) (∅ : ImportGraph)).nodes :=
  fun _ h => mem_nodes_addPackages.2 (.inr h)

theorem mem_nodes_ofImports : x ∈ (ofImports packages).nodes ↔ x ∈ packages.map Prod.fst := by
  rw [ofImports, (addAllImports_spec (y := x) addPackages_nodes).1, mem_nodes_addPackages]
  exact or_iff_right (List.not_mem_nil)

/-- The edges of the graph are the imports that lead to a given package. -/
theorem dependsOn_ofImports :
    (ofImports packages).DependsOn x y ↔
      (∃ imports, (x, imports) ∈ packages ∧ y ∈ imports) ∧ y ∈ packages.map Prod.fst := by
  rw [ofImports, (addAllImports_spec addPackages_nodes).2, dependsOn_addPackages,
    mem_nodes_addPackages]
  constructor
  · rintro (h | ⟨h, hy | hy⟩)
    · exact absurd h List.not_mem_nil
    · exact absurd hy List.not_mem_nil
    · exact ⟨h, hy⟩
  · rintro ⟨h, hy⟩
    exact .inr ⟨h, .inr hy⟩

end packages

/-! ### The graph of some units -/

section units

variable {units : List (String × List String)}

theorem addEdges_spec (x y : String) (dependencies : List String) (hp : path ∈ g.nodes) :
    (x ∈ (dependencies.foldl (fun g d => g.addEdge d path) g).nodes ↔
      x ∈ g.nodes ∨ x ∈ dependencies) ∧
    ((dependencies.foldl (fun g d => g.addEdge d path) g).DependsOn x y ↔
      g.DependsOn x y ∨ x = path ∧ y ∈ dependencies) := by
  induction dependencies generalizing g with
  | nil => simp
  | cons d dependencies ih =>
    obtain ⟨hn, hd⟩ := ih (g := g.addEdge d path) (mem_nodes_addEdge.2 (.inl hp))
    rw [List.foldl_cons, hn, hd, mem_nodes_addEdge, dependsOn_addEdge, List.mem_cons, List.mem_cons]
    constructor
    · constructor
      · rintro ((h | h | rfl) | h)
        · exact .inl h
        · exact .inr (.inl h)
        · exact .inl hp
        · exact .inr (.inr h)
      · rintro (h | h | h)
        · exact .inl (.inl h)
        · exact .inl (.inr (.inl h))
        · exact .inr h
    · rw [or_assoc, and_or_left]

theorem addUnits_spec :
    (x ∈ (units.foldl (fun g (path, dependencies) =>
        dependencies.foldl (fun g d => g.addEdge d path) (g.addPackage path)) g).nodes ↔
      x ∈ g.nodes ∨ ∃ unit ∈ units, x = unit.1 ∨ x ∈ unit.2) ∧
    ((units.foldl (fun g (path, dependencies) =>
        dependencies.foldl (fun g d => g.addEdge d path) (g.addPackage path)) g).DependsOn x y ↔
      g.DependsOn x y ∨ ∃ dependencies, (x, dependencies) ∈ units ∧ y ∈ dependencies) := by
  induction units generalizing g with
  | nil => simp
  | cons unit units ih =>
    obtain ⟨path, ds⟩ := unit
    have hp : path ∈ (g.addPackage path).nodes := (mem_nodes_addPackage g).2 (.inr rfl)
    obtain ⟨hn, hd⟩ := ih (g := ds.foldl (fun g d => g.addEdge d path) (g.addPackage path))
    obtain ⟨hn', hd'⟩ := addEdges_spec x y ds hp
    rw [List.foldl_cons]
    refine ⟨hn.trans ?_, hd.trans ?_⟩
    · rw [hn', mem_nodes_addPackage]
      simp only [List.mem_cons, exists_eq_or_imp]
      rw [or_assoc, or_assoc, or_assoc]
    · rw [hd', dependsOn_addPackage]
      constructor
      · rintro ((h | ⟨rfl, h⟩) | ⟨js, hjs, h⟩)
        · exact .inl h
        · exact .inr ⟨ds, List.mem_cons_self, h⟩
        · exact .inr ⟨js, List.mem_cons_of_mem _ hjs, h⟩
      · rintro (h | ⟨js, hjs, h⟩)
        · exact .inl (.inl h)
        · rcases List.mem_cons.1 hjs with e | hjs
          · cases e
            exact .inl (.inr ⟨rfl, h⟩)
          · exact .inr ⟨js, hjs, h⟩

theorem mem_nodes_ofUnits :
    x ∈ (ofUnits units).nodes ↔ ∃ unit ∈ units, x = unit.1 ∨ x ∈ unit.2 := by
  rw [ofUnits, (addUnits_spec (y := x)).1]
  exact or_iff_right List.not_mem_nil

theorem dependsOn_ofUnits :
    (ofUnits units).DependsOn x y ↔
      ∃ dependencies, (x, dependencies) ∈ units ∧ y ∈ dependencies := by
  rw [ofUnits, addUnits_spec.2]
  exact or_iff_right List.not_mem_nil

end units

end Playground.ImportGraph
