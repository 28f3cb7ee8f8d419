import Playground.Proofs.Graph.Closure
import Playground.Proofs.Graph.Heights
import Playground.Proofs.Tree.Contents
import Playground.Publish.Universe

/-!
# The universe of a tree held in memory

The walk through the source directory enters every directory once.  Its frontier (`IsFrontier`)
holds directories none of which lies in another one or above what was entered; so what lies below
them is still to be entered, and nothing twice.  The directories that were entered are different
places that can be listed, which the breadth of the tree bounds, so the bound on the walk never cuts
it short (`exists_walk`).

Main statement: the universe of a tree that calls make is complete, and every package in it can be
read (`enumerate_calls`).
-/

namespace Playground

open Playground.Tree (Call)

/-- A directory that is entered: it is none for tests or vendored code, and not hidden. -/
def Universe.IsEntered (name : String) : Prop :=
  name ≠ "testdata" ∧ name ≠ "vendor" ∧ name.toList.head? ≠ some '.' ∧
    name.toList.head? ≠ some '_'

theorem Universe.isSkippedDir_eq_false_iff {name : String} :
    isSkippedDir name = false ↔ IsEntered name := by
  simp [isSkippedDir, IsEntered, and_assoc]

namespace MemoryTree

open Universe (IsEntered isSkippedDir subdirectories walk isListed)

variable {t : MemoryTree} {ext : String} {excluded : List String} {p q r c : Path}
  {entered pending rest : List Path}

/-! ### Directories to be entered -/

/-- A directory of sources is entered from another one on. -/
def Below (t : MemoryTree) (q r : Path) : Prop :=
  ∃ below, r = q ++ below ∧ (∀ name ∈ below, IsEntered name) ∧
    t.kind (sourceDir :: r) = some .dir

theorem isCanonical_of_dir (ht : t.IsClosed) (h : t.kind (sourceDir :: q) = some .dir) :
    q.IsCanonical := fun name hname =>
  (ht _ (List.cons_ne_nil _ _) (.inl h)).1 name (List.mem_cons_of_mem _ hname)

/-- The directories that are entered from one, the last of its listing first. -/
def children (t : MemoryTree) (q : Path) : List Path :=
  (((t.entries (sourceDir :: q)).filter fun e => e.isDir && !isSkippedDir e.name).map
    fun e => q ++ [e.name]).reverse

theorem mem_children : r ∈ t.children q ↔
    ∃ name, r = q ++ [name] ∧ IsEntered name ∧ t.kind (sourceDir :: r) = some .dir := by
  rw [children, List.mem_reverse, List.mem_map]
  simp only [List.mem_filter, Bool.and_eq_true, Bool.not_eq_true',
    Universe.isSkippedDir_eq_false_iff]
  constructor
  · rintro ⟨⟨name, kind⟩, ⟨he, hkind, hname⟩, rfl⟩
    obtain rfl : kind = .dir := by simpa [Entry.isDir] using hkind
    exact ⟨name, rfl, hname, mem_entries.1 he⟩
  · rintro ⟨name, rfl, hname, hdir⟩
    have he : ⟨name, .dir⟩ ∈ t.entries (sourceDir :: q) := mem_entries.2 hdir
    exact ⟨⟨name, .dir⟩, ⟨he, rfl, hname⟩, rfl⟩

theorem nodup_children (t : MemoryTree) (q : Path) : (t.children q).Nodup := by
  refine List.nodup_reverse.2 (List.Nodup.map_on ?_ ((nodup_entries t _).filter _))
  rintro ⟨name, kind⟩ he ⟨name', kind'⟩ he' hsame
  obtain rfl : name = name' := by simpa using hsame
  simp only [List.mem_filter, Entry.isDir, Bool.and_eq_true, beq_iff_eq] at he he'
  obtain rfl : kind = .dir := he.2.1
  obtain rfl : kind' = .dir := he'.2.1
  rfl

theorem prefix_of_mem_children (hc : c ∈ t.children q) (hr : r <+: c) : r <+: q ∨ r = c := by
  obtain ⟨name, rfl, -⟩ := mem_children.1 hc
  exact (List.prefix_concat_iff.1 hr).symm

theorem above_of_mem_children (hc : c ∈ t.children q) : q <+: c ∧ ¬ c <+: q := by
  obtain ⟨name, rfl, -⟩ := mem_children.1 hc
  refine ⟨List.prefix_append _ _, fun hpre => ?_⟩
  have hlength := hpre.length_le
  rw [List.length_append, List.length_singleton] at hlength
  omega

/-- What is entered from a directory on is the directory itself and what is entered from those in it
on. -/
theorem below_iff (ht : t.IsClosed) (hq : t.kind (sourceDir :: q) = some .dir) :
    t.Below q r ↔ r = q ∨ ∃ c ∈ t.children q, t.Below c r := by
  constructor
  · rintro ⟨below, rfl, hentered, hdir⟩
    cases below with
    | nil => exact .inl (List.append_nil q)
    | cons name below =>
      rw [List.append_cons] at hdir ⊢
      have hchild : t.kind (sourceDir :: (q ++ [name])) = some .dir := by
        cases below with
        | nil => rwa [List.append_nil] at hdir
        | cons next below =>
          refine ht.kind_of_isAbove (.inl hdir) (Path.isAbove_iff.2 ⟨?_, by simp⟩)
          exact (List.prefix_cons_inj _).2 (List.prefix_append _ _)
      exact .inr ⟨_, mem_children.2 ⟨name, rfl, hentered name List.mem_cons_self, hchild⟩, below,
        rfl, fun n hn => hentered n (List.mem_cons_of_mem _ hn), hdir⟩
  · rintro (rfl | ⟨c, hc, below, rfl, hentered, hdir⟩)
    · exact ⟨[], (List.append_nil r).symm, nofun, hq⟩
    · obtain ⟨name, rfl, hname, -⟩ := mem_children.1 hc
      exact ⟨name :: below, List.append_assoc _ _ _, List.forall_mem_cons.2 ⟨hname, hentered⟩, hdir⟩

theorem subdirectories_text (ht : t.IsClosed) (hq : q.IsCanonical) :
    subdirectories q.text (t.entries (sourceDir :: q)) = (t.children q).map Path.text := by
  rw [subdirectories, children, List.map_reverse, List.map_map, List.map_map]
  congr 1
  refine List.map_congr_left fun e he => ?_
  obtain ⟨name, kind⟩ := e
  rw [List.mem_filter, Bool.and_eq_true, mem_entries] at he
  have hthere : t.kind (sourceDir :: q ++ [name]) = some .dir ∨
      sourceDir :: q ++ [name] ∈ t.files := by
    cases kind with
    | file => exact .inr he.1
    | dir => exact .inl he.1
  exact Path.join_text hq ((ht _ (by simp) hthere).1 name (by simp))

/-! ### The frontier of the walk -/

/-- What holds between two steps of the walk: the directories that are pending are different from
each other and from those that were entered, and none of them lies above another one or above one
that was entered. -/
structure IsFrontier (t : MemoryTree) (entered pending : List Path) : Prop where
  nodup : entered.Nodup
  dirs : ∀ q, q ∈ entered ∨ q ∈ pending → t.kind (sourceDir :: q) = some .dir
  apart : pending.Pairwise fun a b => ¬ a <+: b ∧ ¬ b <+: a
  ahead : ∀ q ∈ pending, ∀ r ∈ entered, ¬ q <+: r

namespace IsFrontier

theorem start (h : t.kind [sourceDir] = some .dir) : t.IsFrontier [] [[]] where
  nodup := .nil
  dirs q hq := by
    rcases hq with hq | hq
    · exact absurd hq List.not_mem_nil
    · rwa [List.mem_singleton.1 hq]
  apart := List.pairwise_singleton _ _
  ahead q _ r hr := absurd hr List.not_mem_nil

theorem enter (h : t.IsFrontier entered (q :: rest)) :
    t.IsFrontier (q :: entered) (t.children q ++ rest) := by
  obtain ⟨hqrest, hrest⟩ := List.pairwise_cons.1 h.apart
  have hself : ∀ r ∈ entered, ¬ q <+: r := h.ahead q List.mem_cons_self
  constructor
  case nodup =>
    exact List.nodup_cons.2 ⟨fun hq => hself q hq List.prefix_rfl, h.nodup⟩
  case dirs =>
    rintro r (hr | hr)
    · rcases List.mem_cons.1 hr with rfl | hr
      · exact h.dirs r (.inr List.mem_cons_self)
      · exact h.dirs r (.inl hr)
    · rcases List.mem_append.1 hr with hr | hr
      · obtain ⟨name, -, -, hdir⟩ := mem_children.1 hr
        exact hdir
      · exact h.dirs r (.inr (List.mem_cons_of_mem _ hr))
  case apart =>
    refine List.pairwise_append.2 ⟨?_, hrest, fun c hc r hr => ⟨fun hpre => ?_, fun hpre => ?_⟩⟩
    · refine (nodup_children t q).imp_of_mem fun ha hb hne =>
        ⟨fun hpre => hne ?_, fun hpre => hne ?_⟩
      · exact (prefix_of_mem_children hb hpre).resolve_left (above_of_mem_children ha).2
      · exact ((prefix_of_mem_children ha hpre).resolve_left (above_of_mem_children hb).2).symm
    · exact (hqrest r hr).1 ((above_of_mem_children hc).1.trans hpre)
    · rcases prefix_of_mem_children hc hpre with hpre | rfl
      · exact (hqrest r hr).2 hpre
      · exact (hqrest r hr).1 (above_of_mem_children hc).1
  case ahead =>
    intro p hp r hr
    rcases List.mem_append.1 hp with hp | hp
    · rcases List.mem_cons.1 hr with rfl | hr
      · exact (above_of_mem_children hp).2
      · exact fun hpre => hself r hr ((above_of_mem_children hp).1.trans hpre)
    · rcases List.mem_cons.1 hr with he | hr
      · exact he ▸ (hqrest p hp).2
      · exact h.ahead p (List.mem_cons_of_mem _ hp) r hr

/-- The directories that were entered are no more than the places that can be listed. -/
theorem length_le_breadth (h : t.IsFrontier entered pending) :
    entered.length ≤ t.view.breadth := by
  have hplaces := t.view.le_breadth (entered.map (sourceDir :: ·))
    (h.nodup.map fun _ _ he => (List.cons.inj he).2) fun p hp => by
      obtain ⟨q, hq, rfl⟩ := List.mem_map.1 hp
      exact t.isOk_list_iff.2 (h.dirs q (.inl hq))
  rwa [List.length_map] at hplaces

end IsFrontier

/-! ### The walk -/

theorem read?_packageDir_text (hq : q.IsCanonical) :
    Path.read? (packageDir q.text) = some (sourceDir :: q) := by
  rw [Package.read?_packageDir_eq, Path.read?_text hq]
  rfl

theorem isListed_text_iff (ht : t.IsClosed) (hq : q.IsCanonical) :
    isListed t.view ext excluded q.text = true ↔
      q ≠ [] ∧ q.text ∉ excluded ∧ t.HoldsSources ext (sourceDir :: q) := by
  rw [isListed, Bool.and_eq_true, Bool.and_eq_true, decide_eq_true_eq,
    hasSources_view_iff ht (read?_packageDir_text hq), ne_eq, Path.text_eq_empty_iff hq, and_assoc]
  simp

theorem walk_cons (ext : String) (excluded : List String) (ht : t.IsClosed) (hq : q.IsCanonical)
    (hdir : t.kind (sourceDir :: q) = some .dir) (budget : Nat) (rest : List Path) :
    walk t.view ext excluded (budget + 1) ((q :: rest).map Path.text) =
      (walk t.view ext excluded budget ((t.children q ++ rest).map Path.text)).map
        ((if isListed t.view ext excluded q.text then [q.text] else []) ++ ·) := by
  have hlist : t.view.listAt (Path.join sourceDir q.text) = .ok (t.entries (sourceDir :: q)) :=
    (View.listAt_of_read? _ (read?_packageDir_text hq)).trans (list_of_dir hdir)
  rw [List.map_cons, walk, hlist, List.map_append, ← subdirectories_text ht hq]

/-- The walk finds, once each, the packages in the directories that are entered from the pending
ones on. -/
theorem exists_walk (ext : String) (excluded : List String) (ht : t.IsClosed) {budget : Nat}
    (h : t.IsFrontier entered pending) (hbudget : t.view.breadth ≤ entered.length + budget) :
    ∃ found : List Path, walk t.view ext excluded budget (pending.map Path.text) =
        .ok (found.map Path.text) ∧ found.Nodup ∧
      ∀ r, r ∈ found ↔ (∃ q ∈ pending, t.Below q r) ∧
        isListed t.view ext excluded r.text = true := by
  induction budget generalizing entered pending with
  | zero =>
    cases pending with
    | nil => exact ⟨[], by rw [List.map_nil, walk], .nil, by simp⟩
    | cons q rest =>
      have hlength := h.enter.length_le_breadth
      rw [List.length_cons] at hlength
      omega
  | succ budget ih =>
    cases pending with
    | nil => exact ⟨[], by rw [List.map_nil, walk], .nil, by simp⟩
    | cons q rest =>
      have hdir := h.dirs q (.inr List.mem_cons_self)
      have hq := isCanonical_of_dir ht hdir
      obtain ⟨found, hwalk, hnodup, hfound⟩ := ih h.enter (by rw [List.length_cons]; omega)
      -- the directory itself is not found again
      have hnew : q ∉ found := fun hmem => by
        obtain ⟨⟨p, hp, below, he, -⟩, -⟩ := (hfound q).1 hmem
        exact h.enter.ahead p hp q List.mem_cons_self ⟨below, he.symm⟩
      have hbelow (r : Path) : (∃ p ∈ q :: rest, t.Below p r) ↔
          r = q ∨ ∃ p ∈ t.children q ++ rest, t.Below p r := by
        simp only [List.mem_cons, List.mem_append, or_and_right, exists_or, exists_eq_left,
          below_iff ht hdir, or_assoc]
      rw [walk_cons ext excluded ht hq hdir, hwalk]
      simp only [hbelow]
      split
      · rename_i hlisted
        refine ⟨q :: found, rfl, List.nodup_cons.2 ⟨hnew, hnodup⟩, fun r => ?_⟩
        rw [List.mem_cons, hfound, or_and_right]
        exact or_congr_left (iff_self_and.2 fun he => he ▸ hlisted)
      · rename_i hlisted
        refine ⟨found, rfl, hnodup, fun r => ?_⟩
        rw [hfound, or_and_right, iff_or_self]
        rintro ⟨rfl, hl⟩
        exact absurd hl hlisted

/-! ### The universe -/

/-- A package that is published: a directory below the source directory that is entered, has source
files and is not excluded. -/
structure IsPublished (t : MemoryTree) (ext : String) (excluded : List String) (p : String) :
    Prop where
  isImportPath : Package.isImportPath p = true
  kind : t.view.kindAt (packageDir p) = some .dir
  entered : ∀ name ∈ (Path.read? p).getD [], IsEntered name
  holdsSources : t.HoldsSources ext (Package.place p)
  notMem : p ∉ excluded

theorem isPublished_iff (ht : t.IsClosed) {p : String} : t.IsPublished ext excluded p ↔
    ∃ q : Path, p = q.text ∧ t.Below [] q ∧ isListed t.view ext excluded q.text = true := by
  constructor
  · rintro ⟨hpath, hkind, hentered, hsources, hnot⟩
    obtain ⟨hne, q, hread, rfl⟩ := Package.isImportPath_iff.1 hpath
    rw [View.kindAt, Package.read?_packageDir hpath] at hkind
    rw [Package.place, hread] at hkind hsources
    rw [hread] at hentered
    have hq := isCanonical_of_dir ht hkind
    exact ⟨q, rfl, ⟨q, rfl, hentered, hkind⟩, (isListed_text_iff ht hq).2
      ⟨fun he => hne ((Path.text_eq_empty_iff hq).2 he), hnot, hsources⟩⟩
  · rintro ⟨q, rfl, ⟨_, rfl, hentered, hdir⟩, hlisted⟩
    have hq := isCanonical_of_dir ht hdir
    obtain ⟨hne, hnot, hsources⟩ := (isListed_text_iff ht hq).1 hlisted
    have hread := Path.read?_text hq
    have hpath : Package.isImportPath q.text = true :=
      Package.isImportPath_iff.2 ⟨mt (Path.text_eq_empty_iff hq).1 hne, q, hread, rfl⟩
    refine ⟨hpath, ?_, ?_, ?_, hnot⟩
    · rw [View.kindAt, read?_packageDir_text hq]
      exact hdir
    · rw [hread]
      exact hentered
    · rw [Package.place, hread]
      exact hsources

theorem IsPublished.exists_load (ht : t.IsClosed) {p : String} (h : t.IsPublished ext excluded p) :
    ∃ package, Package.load t.view ext p = .ok package := by
  have hkind := h.kind
  rw [View.kindAt, Package.read?_packageDir h.isImportPath] at hkind
  exact (Package.load_view_of_dir ext ht h.isImportPath hkind).1 h.holdsSources

theorem exists_enumerate (ht : t.IsClosed) (ext : String) (excluded : List String) :
    ∃ paths, Universe.enumerate t.view ext excluded = .ok paths ∧ paths.Pairwise (· < ·) ∧
      ∀ p, p ∈ paths ↔ t.IsPublished ext excluded p := by
  have hsrc : t.view.isDirAt sourceDir = true ↔ t.kind [sourceDir] = some .dir := by
    have hread : Path.read? sourceDir = some [sourceDir] := by decide
    rw [View.isDirAt, View.kindAt, hread, beq_iff_eq]
    rfl
  unfold Universe.enumerate
  split
  · rename_i hdir
    have hbudget : t.view.breadth ≤ ([] : List Path).length + t.view.breadth := Nat.le_add_left _ _
    obtain ⟨found, hwalk, hnodup, hfound⟩ :=
      exists_walk ext excluded ht (.start (hsrc.1 hdir)) hbudget
    have hcanonical : ∀ q ∈ found, q.IsCanonical := fun q hq => by
      obtain ⟨⟨_, -, -, -, -, hkind⟩, -⟩ := (hfound q).1 hq
      exact isCanonical_of_dir ht hkind
    have hroot : [[]].map Path.text = [""] := rfl
    rw [← hroot, hwalk]
    refine ⟨_, rfl, ImportGraph.pairwise_sortPaths (List.Nodup.map_on ?_ hnodup), fun p => ?_⟩
    · exact fun q hq r hr => Path.text_inj (hcanonical q hq) (hcanonical r hr)
    · rw [ImportGraph.mem_sortPaths, List.mem_map, isPublished_iff ht]
      simp only [hfound, List.mem_singleton, exists_eq_left, eq_comm (a := p), and_comm]
  · rename_i hdir
    refine ⟨[], rfl, .nil, fun p => iff_of_false List.not_mem_nil fun h => hdir (hsrc.2 ?_)⟩
    obtain ⟨q, -, ⟨_, -, -, hkind⟩, -⟩ := (isPublished_iff ht).1 h
    by_cases hq : q = []
    · rwa [hq] at hkind
    · have habove : Path.isAbove [sourceDir] (sourceDir :: q) = true :=
        Path.isAbove_iff.2 ⟨⟨q, rfl⟩, by simpa using Ne.symm hq⟩
      exact ht.kind_of_isAbove (.inl hkind) habove

/-- Whatever calls made a tree, its universe can be enumerated, for any extension and any excludes.
It lists in strict order, and so once each, exactly the import paths whose directory is there, is
not kept out by any of its names, has a source file directly in it and is not excluded.  Each of
these packages can be read. -/
theorem enumerate_calls (cs : List Call) (ext : String) (excluded : List String) :
    ∃ t, (Tree.memory ∅).calls cs = .memory t ∧
      ∃ paths, Universe.enumerate t.view ext excluded = .ok paths ∧ paths.Pairwise (· < ·) ∧
        (∀ p, p ∈ paths ↔ t.IsPublished ext excluded p) ∧
        ∀ p ∈ paths, ∃ package, Package.load t.view ext p = .ok package := by
  obtain ⟨t, hcalls, hreachable⟩ := exists_calls_eq cs
  have ht := isClosed_of_reachable hreachable
  obtain ⟨paths, henumerate, hsorted, hpaths⟩ := exists_enumerate ht ext excluded
  exact ⟨t, hcalls, paths, henumerate, hsorted, hpaths,
    fun p hp => ((hpaths p).1 hp).exists_load ht⟩

end MemoryTree

end Playground
