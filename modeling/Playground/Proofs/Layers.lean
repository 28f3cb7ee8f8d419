import Playground.Proofs.Tree.Calls

/-!
# Packages in stacked trees

A stack lists a directory in its first layer that has anything there, but it reads each file through
all layers from the first one on.  No file of an earlier layer comes in between when the layers are
held in memory: whatever lies in such a tree lies in directories, so that a layer without the
directory has none of its files.

Main statement: whatever calls have made the layers, a package is read as it is read from the first
of them that has anything at its place, and it is not found when there is none
(`Package.load_overlay_calls`).
-/

namespace Playground

open Playground.Tree (Call)

theorem MemoryTree.exists_calls_eq_all (histories : List (List Call)) :
    ∃ layers : List MemoryTree, histories.map (Tree.memory ∅).calls = layers.map Tree.memory ∧
      ∀ t ∈ layers, t.IsClosed := by
  induction histories with
  | nil => exact ⟨[], rfl, by simp⟩
  | cons cs histories ih =>
    obtain ⟨t, hcalls, ht⟩ := exists_calls_eq cs
    obtain ⟨layers, hlayers, hclosed⟩ := ih
    refine ⟨t :: layers, by rw [List.map_cons, hcalls, hlayers, List.map_cons], ?_⟩
    simpa [isClosed_of_reachable ht] using hclosed

theorem Tree.views_map_memory (layers : List MemoryTree) :
    views (layers.map memory) = layers.map MemoryTree.view := by
  induction layers with
  | nil => rfl
  | cons t layers ih => rw [List.map_cons, views, ih, view, List.map_cons]

namespace Package

theorem existsAt_packageDir {t : MemoryTree} {p : String} (hp : isImportPath p = true) :
    t.view.existsAt (packageDir p) = (t.kind (place p)).isSome := by
  rw [View.existsAt, View.kindAt, read?_packageDir hp]
  rfl

/-- A package is read as from the first layer that has anything at its place.  Where no layer has
anything there, it is not found. -/
theorem load_overlay_calls (histories : List (List Call)) (ext p : String) :
    load (Tree.overlay (histories.map (Tree.memory ∅).calls)).view ext p =
      match (histories.map (Tree.memory ∅).calls).find? (·.view.existsAt (packageDir p)) with
      | some layer => load layer.view ext p
      | none => .error (if isImportPath p then .notFound p else .invalidImportPath p) := by
  obtain ⟨layers, hlayers, hclosed⟩ := MemoryTree.exists_calls_eq_all histories
  rw [hlayers, Tree.view, Tree.views_map_memory]
  by_cases hp : isImportPath p = true
  · have hexists : ((·.view.existsAt (packageDir p)) ∘ Tree.memory) =
        fun t : MemoryTree => (t.kind (place p)).isSome := funext fun _ => existsAt_packageDir hp
    rw [List.find?_map, hexists]
    cases hfind : layers.find? fun t => (t.kind (place p)).isSome with
    | none =>
      simp only [List.find?_eq_none, Option.not_isSome_iff_eq_none] at hfind
      rw [Workspace.load_layers_of_none layers hfind hp]
      simp [hp]
    | some t =>
      obtain ⟨hkind, above, below, rfl, habove⟩ := List.find?_eq_some_iff_append.1 hfind
      rw [List.map_append, List.map_cons]
      refine Workspace.load_layers above _ (fun s hs => ⟨hclosed s (by simp [hs]), ?_⟩)
        (hclosed t (by simp)) hp hkind
      simpa using habove s hs
  · rw [load_of_not_isImportPath hp]
    split
    · rw [load_of_not_isImportPath hp]
    · rw [if_neg hp]

end Package

end Playground
