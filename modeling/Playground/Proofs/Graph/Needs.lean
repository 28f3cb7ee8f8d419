import Playground.Proofs.Graph.Closure
import Playground.Proofs.Graph.Heights

/-!
# What some roots need

The closure of some roots is a closure operator on the packages of a graph: it holds the roots that
are in the graph, is closed under dependencies, and the closure of a closure is the closure itself.
It is listed in strict order, so it is settled by its packages (`closure_congr`), and all of this
follows from what it holds (`mem_closure_iff`).

Main statement: the closures of the graphs that calls make, cyclic ones included
(`closure_ofCalls`).
-/

namespace Playground.ImportGraph

open Relation

variable {g : ImportGraph} {x y : String} {seen pending roots roots' : List String}

/-! ### Listed once, in order -/

theorem nodup_reachFrom (h : seen.Nodup) : (g.reachFrom seen pending).Nodup := by
  fun_induction g.reachFrom seen pending with
  | case1 => exact h
  | case2 seen path pending hp hlt ih => exact ih (List.nodup_cons.2 ⟨hp.2, h⟩)
  | case3 seen path pending hp ih => exact ih h

theorem pairwise_closure (g : ImportGraph) (roots : List String) :
    (g.closure roots).Pairwise (· < ·) :=
  pairwise_sortPaths (nodup_reachFrom .nil)

theorem closure_congr {g' : ImportGraph}
    (h : ∀ x, x ∈ g.closure roots ↔ x ∈ g'.closure roots') :
    g.closure roots = g'.closure roots' :=
  (pairwise_closure g roots).eq_of_mem_iff (pairwise_closure g' roots') h

/-! ### A closure operator -/

theorem mem_closure_of_mem (h : x ∈ roots) (hx : x ∈ g.nodes) : x ∈ g.closure roots :=
  mem_closure_iff.2 ⟨x, h, hx, .refl⟩

theorem mem_nodes_of_mem_closure (h : x ∈ g.closure roots) : x ∈ g.nodes := by
  obtain ⟨r, -, hr, hrx⟩ := mem_closure_iff.1 h
  rcases hrx.cases_tail with rfl | ⟨y, -, hyx⟩
  · exact hr
  · exact hyx.dependency_mem

/-- A closure holds all that its packages need. -/
theorem mem_closure_of_reaches (h : x ∈ g.closure roots) (hxy : ReflTransGen g.DependsOn x y) :
    y ∈ g.closure roots := by
  obtain ⟨r, hr, hrn, hrx⟩ := mem_closure_iff.1 h
  exact mem_closure_iff.2 ⟨r, hr, hrn, hrx.trans hxy⟩

theorem closure_mono (h : roots ⊆ roots') : g.closure roots ⊆ g.closure roots' := by
  intro x hx
  obtain ⟨r, hr, hreaches⟩ := mem_closure_iff.1 hx
  exact mem_closure_iff.2 ⟨r, h hr, hreaches⟩

theorem mem_closure_append :
    x ∈ g.closure (roots ++ roots') ↔ x ∈ g.closure roots ∨ x ∈ g.closure roots' := by
  simp only [mem_closure_iff, List.mem_append, or_and_right, exists_or]

theorem closure_closure (g : ImportGraph) (roots : List String) :
    g.closure (g.closure roots) = g.closure roots := by
  refine closure_congr fun x => ⟨fun h => ?_, fun h => ?_⟩
  · obtain ⟨y, hy, -, hyx⟩ := mem_closure_iff.1 h
    exact mem_closure_of_reaches hy hyx
  · exact mem_closure_of_mem h (mem_nodes_of_mem_closure h)

/-! ### Graphs that calls make -/

/-- Whatever calls made a graph, with cycles or without, the closure of some roots lists, once each
and in order, the packages that are reached from the roots that the calls name, along the edges that
they record from a package to what it imports.  Roots that no call names add nothing.  So more roots
have a larger closure, roots put together have the closures of both, and the closure of a closure is
the same. -/
theorem closure_ofCalls (calls : List Call) (roots : List String) :
    ((ofCalls calls).closure roots).Pairwise (· < ·) ∧
    (∀ x, x ∈ (ofCalls calls).closure roots ↔
      ∃ r ∈ roots, Mentioned calls r ∧ ReflTransGen (Linked calls) r x) ∧
    (∀ others, (∀ r ∈ others, ¬ Mentioned calls r) →
      (ofCalls calls).closure (roots ++ others) = (ofCalls calls).closure roots) ∧
    (∀ roots', roots ⊆ roots' →
      (ofCalls calls).closure roots ⊆ (ofCalls calls).closure roots') ∧
    (∀ roots' x, x ∈ (ofCalls calls).closure (roots ++ roots') ↔
      x ∈ (ofCalls calls).closure roots ∨ x ∈ (ofCalls calls).closure roots') ∧
    (ofCalls calls).closure ((ofCalls calls).closure roots) = (ofCalls calls).closure roots := by
  have hedges : (ofCalls calls).DependsOn = Linked calls :=
    funext fun x => funext fun y => propext dependsOn_ofCalls
  refine ⟨pairwise_closure _ _, fun x => ?_, fun others hothers => ?_, fun roots' => closure_mono,
    fun roots' x => mem_closure_append, closure_closure _ _⟩
  · simp only [mem_closure_iff, mem_nodes_ofCalls, hedges]
  · refine closure_congr fun x => mem_closure_append.trans (or_iff_left fun h => ?_)
    obtain ⟨r, hr, hrn, -⟩ := mem_closure_iff.1 h
    exact hothers r hr (mem_nodes_ofCalls.1 hrn)

end Playground.ImportGraph
