import Mathlib.Data.List.Nodup
import Playground.Build.Discover
import Playground.Proofs.Build.Meaning
import Playground.Proofs.Named

/-!
# Discovery finds what the roots need

Discovery keeps a frontier (`Discovering`): what was found and what is queued is needed by the
roots, and a root or an import of a found package is known, found or queued.  When the queue is
empty, the packages found are everything that the roots need, up to what is known.

The bound on the number of reads never cuts a search short, because the packages found lie in
different directories that can be listed (`Discovering.size_le_breadth`).
-/

namespace Playground

variable {sources : View} {ext : String} {known : String → Bool} {roots queue : List String}
  {path : String} {package : Package} {found packages : PackageSet}

/-! ### The frontier -/

/-- What holds between two reads: `found` and `queue` are needed by the roots, and all that they
leave out is known. -/
structure Discovering (sources : View) (ext : String) (known : String → Bool)
    (roots : List String) (found : PackageSet) (queue : List String) : Prop where
  load : ∀ p package, found[p]? = some package → Package.load sources ext p = .ok package
  unknown : ∀ p ∈ found, known p = false
  needed : ∀ p, p ∈ found ∨ p ∈ queue → Needs sources ext roots p
  root : ∀ r ∈ roots, known r = true ∨ r ∈ found ∨ r ∈ queue
  closed : ∀ p ∈ found, ∀ d, Imports sources ext p d → known d = true ∨ d ∈ found ∨ d ∈ queue

namespace Discovering

theorem start : Discovering sources ext known roots ∅ roots where
  load p package h := by
    rw [Std.ExtTreeMap.getElem?_empty] at h
    cases h
  unknown p h := absurd h Std.ExtTreeMap.not_mem_empty
  needed p h := .of_mem (h.resolve_left Std.ExtTreeMap.not_mem_empty)
  root r h := .inr (.inr h)
  closed p h := absurd h Std.ExtTreeMap.not_mem_empty

theorem skip (h : Discovering sources ext known roots found (path :: queue))
    (hp : known path = true ∨ path ∈ found) : Discovering sources ext known roots found queue := by
  have drop : ∀ q, known q = true ∨ q ∈ found ∨ q ∈ path :: queue →
      known q = true ∨ q ∈ found ∨ q ∈ queue := by
    rintro q (hq | hq | hq)
    · exact .inl hq
    · exact .inr (.inl hq)
    · rcases List.mem_cons.1 hq with rfl | hq
      · exact hp.imp_right .inl
      · exact .inr (.inr hq)
  constructor
  · exact h.load
  · exact h.unknown
  · intro q hq
    exact h.needed q (hq.imp_right (List.mem_cons_of_mem _))
  · intro r hr
    exact drop r (h.root r hr)
  · intro q hq d hd
    exact drop d (h.closed q hq d hd)

theorem dropWhile (h : Discovering sources ext known roots found queue) :
    Discovering sources ext known roots found
      (queue.dropWhile fun path => known path || found.contains path) := by
  induction queue with
  | nil => exact h
  | cons path queue ih =>
    rw [List.dropWhile_cons]
    split
    · rename_i hp
      rw [Bool.or_eq_true, Std.ExtTreeMap.contains_iff_mem] at hp
      exact ih (h.skip hp)
    · exact h

/-- Reading the first package of the queue finds it and queues what it imports. -/
theorem read (h : Discovering sources ext known roots found (path :: queue))
    (hp : known path = false) (hload : Package.load sources ext path = .ok package) :
    Discovering sources ext known roots (found.insert path package)
      (queue ++ package.imports) := by
  have hneeded : Needs sources ext roots path := h.needed path (.inr List.mem_cons_self)
  have shift : ∀ q, known q = true ∨ q ∈ found ∨ q ∈ path :: queue →
      known q = true ∨ q ∈ found.insert path package ∨ q ∈ queue ++ package.imports := by
    rintro q (hq | hq | hq)
    · exact .inl hq
    · exact .inr (.inl (Named.mem_insert.2 (.inr hq)))
    · rcases List.mem_cons.1 hq with rfl | hq
      · exact .inr (.inl (Named.mem_insert.2 (.inl rfl)))
      · exact .inr (.inr (List.mem_append_left _ hq))
  constructor
  · intro q found' hq
    rw [Named.getElem?_insert] at hq
    split at hq
    · rename_i he
      cases hq
      rwa [he]
    · exact h.load q found' hq
  · intro q hq
    rcases Named.mem_insert.1 hq with rfl | hq
    · exact hp
    · exact h.unknown q hq
  · rintro q (hq | hq)
    · rcases Named.mem_insert.1 hq with rfl | hq
      · exact hneeded
      · exact h.needed q (.inl hq)
    · rcases List.mem_append.1 hq with hq | hq
      · exact h.needed q (.inr (List.mem_cons_of_mem _ hq))
      · exact hneeded.tail ((imports_iff_of_load hload).2 hq)
  · intro r hr
    exact shift r (h.root r hr)
  · intro q hq d hd
    rcases Named.mem_insert.1 hq with rfl | hq
    · exact .inr (.inr (List.mem_append_right _ ((imports_iff_of_load hload).1 hd)))
    · exact shift d (h.closed q hq d hd)

theorem size_le_breadth (h : Discovering sources ext known roots found queue) :
    found.size ≤ sources.breadth := by
  have hload : ∀ p ∈ found.keys, ∃ package, Package.load sources ext p = .ok package := by
    intro p hp
    obtain ⟨package, hpackage⟩ := Named.mem_iff.1 (Std.ExtTreeMap.mem_keys.1 hp)
    exact ⟨package, h.load p package hpackage⟩
  rw [← Std.ExtTreeMap.length_keys, ← List.length_map (f := Package.place)]
  apply sources.le_breadth
  · refine List.Nodup.map_on (fun p hp q hq he => ?_) Named.nodup_keys
    obtain ⟨package, hpackage⟩ := hload p hp
    obtain ⟨package', hpackage'⟩ := hload q hq
    exact Package.place_inj hpackage hpackage' he
  · intro place hplace
    obtain ⟨p, hp, rfl⟩ := List.mem_map.1 hplace
    obtain ⟨package, hpackage⟩ := hload p hp
    exact Package.list_place hpackage

/-- What the first package of a queue is once the others before it are left out. -/
theorem read_head (h : Discovering sources ext known roots found queue) {rest : List String}
    (hq : (queue.dropWhile fun path => known path || found.contains path) = path :: rest) :
    Needs sources ext roots path ∧ known path = false ∧
      ∀ package, Package.load sources ext path = .ok package →
        (found.insert path package).size = found.size + 1 ∧
          Discovering sources ext known roots (found.insert path package)
            (rest ++ package.imports) := by
  have hd := h.dropWhile
  have hhead := List.head?_dropWhile_not (fun path => known path || found.contains path) queue
  rw [hq] at hd hhead
  obtain ⟨hknown, hfound⟩ := Bool.or_eq_false_iff.1 hhead
  refine ⟨hd.needed path (.inr List.mem_cons_self), hknown, fun package hload => ⟨?_, ?_⟩⟩
  · rw [Std.ExtTreeMap.size_insert, if_neg]
    rw [hfound]
    exact Bool.false_ne_true
  · exact hd.read hknown hload

/-- With an empty queue, all that the roots need is found, if what is known is closed under
imports. -/
theorem known_or_found (h : Discovering sources ext known roots found [])
    (hknown : ∀ p d, known p = true → Imports sources ext p d → known d = true)
    (hp : Needs sources ext roots path) : known path = true ∨ path ∈ found := by
  apply hp.induction
  · intro r hr
    exact (h.root r hr).imp_right fun hr => hr.resolve_right List.not_mem_nil
  · rintro p d hd (hp | hp)
    · exact .inl (hknown p d hp hd)
    · exact (h.closed p hp d hd).imp_right fun hd => hd.resolve_right List.not_mem_nil

end Discovering

/-! ### The search -/

namespace PackageSet

/-- The search ends with an empty queue, or at a needed package that cannot be read. -/
theorem discoverFrom_spec {budget : Nat} (h : Discovering sources ext known roots found queue)
    (hbudget : found.size + budget = sources.breadth + 1) :
    match discoverFrom sources ext known budget found queue with
    | .ok packages => Discovering sources ext known roots packages []
    | .error e => ∃ p, Needs sources ext roots p ∧ known p = false ∧
        Package.load sources ext p = .error e := by
  induction budget generalizing found queue with
  | zero =>
    -- nothing is left of the budget only when more packages were read than there are directories
    have := h.size_le_breadth
    omega
  | succ budget ih =>
    rw [discoverFrom]
    cases hq : queue.dropWhile fun path => known path || found.contains path with
    | nil =>
      have hd := h.dropWhile
      rw [hq] at hd
      exact hd
    | cons path rest =>
      obtain ⟨hneeded, hknown, hread⟩ := h.read_head hq
      dsimp only
      cases hload : Package.load sources ext path with
      | error e => exact ⟨path, hneeded, hknown, hload⟩
      | ok package =>
        obtain ⟨hsize, hfound⟩ := hread package hload
        exact ih hfound (by omega)

theorem discover_spec (sources : View) (ext : String) (known : String → Bool)
    (roots : List String) :
    match discover sources ext known roots with
    | .ok packages => Discovering sources ext known roots packages []
    | .error e => ∃ p, Needs sources ext roots p ∧ known p = false ∧
        Package.load sources ext p = .error e := by
  apply discoverFrom_spec .start
  rw [Std.ExtTreeMap.size_empty, Nat.zero_add]

/-- What discovery finds is what the roots need, up to what is known. -/
theorem discovering_of_discover (h : discover sources ext known roots = .ok packages) :
    Discovering sources ext known roots packages [] := by
  have hspec := discover_spec sources ext known roots
  rwa [h] at hspec

/-- Discovery fails only at a package that the roots need. -/
theorem load_of_discover {e : LoadError} (h : discover sources ext known roots = .error e) :
    ∃ p, Needs sources ext roots p ∧ known p = false ∧ Package.load sources ext p = .error e := by
  have hspec := discover_spec sources ext known roots
  rwa [h] at hspec

end PackageSet

end Playground
