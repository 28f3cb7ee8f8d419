import Playground.Proofs.Graph.Edges

/-!
# Closures

The closure of some roots is exactly what can be reached from those of them that are in the graph
(`mem_closure_iff`), whether the graph has cycles or not.  The search keeps two facts: everything
it has seen comes from a root, and every dependency of what it has seen is seen or pending.
-/

namespace Playground.ImportGraph

open Relation

variable {g : ImportGraph} {path x : String} {seen pending roots : List String}

theorem mem_sortPaths : x ∈ sortPaths roots ↔ x ∈ roots := List.mem_mergeSort

theorem subset_reachFrom (h : x ∈ seen) : x ∈ g.reachFrom seen pending := by
  fun_induction g.reachFrom seen pending with
  | case1 => exact h
  | case2 seen path pending hp hlt ih => exact ih (List.mem_cons_of_mem _ h)
  | case3 seen path pending hp ih => exact ih h

/-- What the search finds was seen before, or is needed by a pending package of the graph. -/
theorem of_mem_reachFrom (h : x ∈ g.reachFrom seen pending) :
    x ∈ seen ∨ ∃ r ∈ pending, r ∈ g.nodes ∧ ReflTransGen g.DependsOn r x := by
  fun_induction g.reachFrom seen pending with
  | case1 => exact .inl h
  | case2 seen path pending hp hlt ih =>
    rcases ih h with hs | ⟨r, hr, hrn, hrx⟩
    · rcases List.mem_cons.1 hs with rfl | hs
      · exact .inr ⟨x, List.mem_cons_self, hp.1, .refl⟩
      · exact .inl hs
    · rcases List.mem_append.1 hr with hr | hr
      · exact .inr ⟨path, List.mem_cons_self, hp.1, .head (mem_dependenciesOf.1 hr) hrx⟩
      · exact .inr ⟨r, List.mem_cons_of_mem _ hr, hrn, hrx⟩
  | case3 seen path pending hp ih =>
    rcases ih h with hs | ⟨r, hr, hrx⟩
    · exact .inl hs
    · exact .inr ⟨r, List.mem_cons_of_mem _ hr, hrx⟩

theorem mem_reachFrom_of_pending (h : x ∈ pending) (hx : x ∈ g.nodes) :
    x ∈ g.reachFrom seen pending := by
  fun_induction g.reachFrom seen pending with
  | case1 => cases h
  | case2 seen path pending hp hlt ih =>
    rcases List.mem_cons.1 h with rfl | h
    · exact subset_reachFrom List.mem_cons_self
    · exact ih (List.mem_append_right _ h)
  | case3 seen path pending hp ih =>
    rcases List.mem_cons.1 h with rfl | h
    · exact subset_reachFrom (Decidable.not_not.1 fun hs => hp ⟨hx, hs⟩)
    · exact ih h

/-- What the search finds is closed under dependencies, if what it starts from is closed up to
what is pending. -/
theorem reachFrom_closed
    (hclosed : ∀ p ∈ seen, ∀ d, g.DependsOn p d → d ∈ seen ∨ d ∈ pending) :
    ∀ p ∈ g.reachFrom seen pending, ∀ d, g.DependsOn p d → d ∈ g.reachFrom seen pending := by
  fun_induction g.reachFrom seen pending with
  | case1 seen =>
    intro p hp d hd
    exact (hclosed p hp d hd).resolve_right List.not_mem_nil
  | case2 seen path pending hp hlt ih =>
    apply ih
    intro p hps d hd
    rcases List.mem_cons.1 hps with rfl | hps
    · exact .inr (List.mem_append_left _ (mem_dependenciesOf.2 hd))
    · rcases hclosed p hps d hd with h | h
      · exact .inl (List.mem_cons_of_mem _ h)
      · rcases List.mem_cons.1 h with rfl | h
        · exact .inl List.mem_cons_self
        · exact .inr (List.mem_append_right _ h)
  | case3 seen path pending hp ih =>
    apply ih
    intro p hps d hd
    rcases hclosed p hps d hd with h | h
    · exact .inl h
    · rcases List.mem_cons.1 h with rfl | h
      · exact .inl (Decidable.not_not.1 fun hs => hp ⟨hd.dependency_mem, hs⟩)
      · exact .inr h

/-- The closure of some roots is what can be reached from those that are in the graph. -/
theorem mem_closure_iff :
    x ∈ g.closure roots ↔ ∃ r ∈ roots, r ∈ g.nodes ∧ ReflTransGen g.DependsOn r x := by
  unfold closure
  rw [mem_sortPaths]
  constructor
  · intro h
    exact (of_mem_reachFrom h).resolve_left List.not_mem_nil
  · rintro ⟨r, hr, hrn, hrx⟩
    have hclosed : ∀ p ∈ g.reachFrom [] roots, ∀ d, g.DependsOn p d → d ∈ g.reachFrom [] roots :=
      reachFrom_closed nofun
    induction hrx with
    | refl => exact mem_reachFrom_of_pending hr hrn
    | tail _ hd ih => exact hclosed _ ih _ hd

end Playground.ImportGraph
