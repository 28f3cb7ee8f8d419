import Playground.Package

/-!
# Import graphs

The nodes of an `ImportGraph` are import paths, and an edge runs from a dependency to its
dependent.  `waves` cuts the graph into levels: a package is in the first level that comes after
those of all its dependencies, and there is no such cut when the graph has a cycle.  It counts down
the dependencies of each package that are not done, and a level is what has none left.  `closure`
is what some packages need, themselves included.  Whether there is a cycle is also asked of the
graph itself, before it is cut (`hasCycle`).
-/

namespace Playground

/-- A package and one that imports it. -/
structure ImportEdge where
  dependency : String
  dependent : String
  deriving DecidableEq, Repr

/-- A graph of packages. -/
structure ImportGraph where
  /-- The packages, in the order in which they were added. -/
  nodes : List String
  edges : List ImportEdge
  nodup : nodes.Nodup
  dependency_mem : ∀ e ∈ edges, e.dependency ∈ nodes
  dependent_mem : ∀ e ∈ edges, e.dependent ∈ nodes

namespace ImportGraph

def empty : ImportGraph where
  nodes := []
  edges := []
  nodup := .nil
  dependency_mem := by simp
  dependent_mem := by simp

instance : EmptyCollection ImportGraph := ⟨empty⟩

variable (g : ImportGraph)

def addPackage (path : String) : ImportGraph :=
  if h : path ∈ g.nodes then g
  else
    { g with
      nodes := g.nodes ++ [path]
      nodup := by
        refine List.nodup_append.2 ⟨g.nodup, by simp, ?_⟩
        intro x hx y hy e
        rw [List.mem_singleton] at hy
        exact h (hy ▸ e ▸ hx)
      dependency_mem := fun e he => List.mem_append_left _ (g.dependency_mem e he)
      dependent_mem := fun e he => List.mem_append_left _ (g.dependent_mem e he) }

/-- The position of a package among all, in the order in which they were added. -/
def indexOf? (path : String) : Option Nat := g.nodes.idxOf? path

theorem mem_nodes_addPackage {path x : String} :
    x ∈ (g.addPackage path).nodes ↔ x ∈ g.nodes ∨ x = path := by
  unfold addPackage
  split
  · rename_i h
    exact ⟨.inl, fun h' => h'.elim id fun e => e ▸ h⟩
  · simp

theorem edges_addPackage (path : String) : (g.addPackage path).edges = g.edges := by
  unfold addPackage
  split <;> rfl

/-- Records that `dependent` imports `dependency`; both become packages of the graph. -/
def addEdge (dependency dependent : String) : ImportGraph :=
  let g' := (g.addPackage dependency).addPackage dependent
  let e : ImportEdge := ⟨dependency, dependent⟩
  if e ∈ g'.edges then g'
  else
    { g' with
      edges := g'.edges ++ [e]
      dependency_mem := by
        intro e' he'
        rcases List.mem_append.1 he' with h | h
        · exact g'.dependency_mem e' h
        · cases List.mem_singleton.1 h
          exact ((g.addPackage dependency).mem_nodes_addPackage).2
            (.inl (g.mem_nodes_addPackage.2 (.inr rfl)))
      dependent_mem := by
        intro e' he'
        rcases List.mem_append.1 he' with h | h
        · exact g'.dependent_mem e' h
        · cases List.mem_singleton.1 h
          exact ((g.addPackage dependency).mem_nodes_addPackage).2 (.inr rfl) }

/-- Records the imports of a package, leaving out those that are not in the graph. -/
def addImports (path : String) (imports : List String) : ImportGraph :=
  imports.foldl
    (fun g dependency => if dependency ∈ g.nodes then g.addEdge dependency path else g) g

/-- The packages that a package imports. -/
def dependenciesOf (path : String) : List String :=
  (g.edges.filter fun e => e.dependent = path).map (·.dependency)

/-- The packages that import a package. -/
def dependentsOf (path : String) : List String :=
  (g.edges.filter fun e => e.dependency = path).map (·.dependent)

/-! ### Levels -/

def sortPaths (paths : List String) : List String := paths.mergeSort fun a b => decide (a ≤ b)

/-- How many dependencies each package has. -/
def dependencyCounts : Named Nat :=
  g.nodes.foldl (fun counts path => counts.insert path (g.dependenciesOf path).length) ∅

/-- Counts one dependency of a package as done. -/
def countDown (counts : Named Nat) (path : String) : Named Nat := counts.modify path (· - 1)

/-- Counts the packages of a level as done, each for all that import it. -/
def countDone (counts : Named Nat) (level : List String) : Named Nat :=
  level.foldl (fun counts path => (g.dependentsOf path).foldl countDown counts) counts

/-- Whether all dependencies of a package are counted as done. -/
def isDue (counts : Named Nat) (path : String) : Bool := counts[path]? = some 0

/-- The packages that remain whose dependencies are all done. -/
def dueIn (counts : Named Nat) (remaining : List String) : List String :=
  remaining.filter (isDue counts)

/-- The packages that remain and wait for a dependency. -/
def waitingIn (counts : Named Nat) (remaining : List String) : List String :=
  remaining.filter fun path => !isDue counts path

theorem length_waitingIn_lt {counts : Named Nat} {remaining : List String}
    (h : dueIn counts remaining ≠ []) :
    (waitingIn counts remaining).length < remaining.length := by
  have : 0 < (dueIn counts remaining).length := List.length_pos_iff.2 h
  have := View.length_filter_add remaining (isDue counts)
  simp only [dueIn, waitingIn] at *
  omega

/-- The levels of the packages that remain, when so many dependencies of each are not done; none
when some of them form a cycle. -/
def levelsFrom (counts : Named Nat) (remaining : List String) : Option (List (List String)) :=
  if remaining = [] then some []
  else if h : dueIn counts remaining = [] then none
  else
    have := length_waitingIn_lt h
    (levelsFrom (g.countDone counts (dueIn counts remaining)) (waitingIn counts remaining)).map
      (sortPaths (dueIn counts remaining) :: ·)
  termination_by remaining.length

/-- The levels of the graph, each in order; none when it has a cycle. -/
def waves : Option (List (List String)) := g.levelsFrom g.dependencyCounts g.nodes

/-! ### Closures -/

/-- The number of packages that were not seen. -/
def unseen (seen : List String) : Nat := g.nodes.countP (· ∉ seen)

theorem countP_notMem_cons_lt {nodes seen : List String} {path : String} (hn : path ∈ nodes)
    (hs : path ∉ seen) : nodes.countP (· ∉ path :: seen) < nodes.countP (· ∉ seen) := by
  induction nodes with
  | nil => cases hn
  | cons x nodes ih =>
    have hle : nodes.countP (· ∉ path :: seen) ≤ nodes.countP (· ∉ seen) :=
      List.countP_mono_left fun y _ hy => by
        simp only [List.mem_cons, not_or, decide_eq_true_eq] at *
        exact hy.2
    rw [List.countP_cons, List.countP_cons]
    by_cases hx : x = path
    · subst hx
      simp only [List.mem_cons, true_or, not_true_eq_false, decide_false, hs, not_false_eq_true,
        decide_true, if_true]
      simp only [List.mem_cons, Bool.false_eq_true, if_false] at *
      omega
    · have := ih ((List.mem_cons.1 hn).resolve_left fun e => hx e.symm)
      by_cases hseen : x ∈ seen <;> simp [hseen, hx] at * <;> omega

theorem unseen_cons_lt {seen : List String} {path : String} (hn : path ∈ g.nodes)
    (hs : path ∉ seen) : g.unseen (path :: seen) < g.unseen seen :=
  countP_notMem_cons_lt hn hs

/-- What can be reached from `pending` besides what was seen before, following imports. -/
def reachFrom (seen pending : List String) : List String :=
  match pending with
  | [] => seen
  | path :: pending =>
    if h : path ∈ g.nodes ∧ path ∉ seen then
      have := g.unseen_cons_lt h.1 h.2
      reachFrom (path :: seen) (g.dependenciesOf path ++ pending)
    else reachFrom seen pending
  termination_by (g.unseen seen, pending.length)
  decreasing_by
    · exact Prod.Lex.left _ _ this
    · exact Prod.Lex.right _ (by simp)

/-- The packages that the roots need, the roots included, in order.  A root that is not in the
graph adds nothing. -/
def closure (roots : List String) : List String := sortPaths (g.reachFrom [] roots)

/-! ### Graphs of packages and of units -/

/-- The graph of some packages.  An import of a package outside them is left out. -/
def ofImports (packages : List (String × List String)) : ImportGraph :=
  packages.foldl (fun g (path, imports) => g.addImports path imports)
    (packages.foldl (fun g (path, _) => g.addPackage path) ∅)

/-- Whether some package is needed by what it imports. -/
def hasCycle : Bool := g.nodes.any fun path => path ∈ g.closure (g.dependenciesOf path)

/-- The graph of some packages, unless they import each other in a cycle. -/
def ofPackages? (packages : List (String × List String)) : Option ImportGraph :=
  let g := ofImports packages
  if g.hasCycle then none else some g

/-- The graph of some units and the dependencies they name, which are packages of the graph
whether there is a unit for them or not. -/
def ofUnits (units : List (String × List String)) : ImportGraph :=
  units.foldl
    (fun g (path, dependencies) =>
      dependencies.foldl (fun g dependency => g.addEdge dependency path) (g.addPackage path))
    ∅

end ImportGraph

end Playground
