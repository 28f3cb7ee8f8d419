import Playground.Proofs.Tree.Calls
import Playground.Proofs.Tree.Written

/-!
# Packages are written into the source directory

Adding a package makes calls on the tree of the session, its directory first (`packageCalls`).  The
paths of these calls are joined from the source directory, the import path and the name of a file.
Whatever the latter two are written like, such a path reads back as one below the source directory
or not at all.

Main statement: written paths are joined as the places they lead to, and adding a package leaves
everything outside the source directory alone (`Workspace.addPackage_stays_in_sourceDir`).
-/

namespace Playground

namespace Tree

variable {tree tree' : Tree} {place above p : Path}

theorem calls_cons (tree : Tree) (c : Call) (cs : List Call) :
    tree.calls (c :: cs) = (tree.call c).1.calls cs := rfl

theorem Opens.upward (h : Opens place tree tree' p) (habove : above <+: place) :
    Opens above tree tree' p := by
  obtain ⟨gap, below, hgap, hbelow, hpassed⟩ := h
  exact ⟨gap, below, hgap, habove.trans hbelow, hpassed⟩

theorem Touches.upward (h : Touches place tree tree' p) (habove : above <+: place) :
    Touches above tree tree' p := by
  refine h.imp ?_ (And.imp_right (·.upward habove))
  rintro ⟨file, below, hfile, hbelow, hfile'⟩
  exact ⟨file, below, hfile, habove.trans hbelow, hfile'⟩

theorem ChangesBelow.upward (h : ChangesBelow [place] tree tree') (habove : above <+: place) :
    ChangesBelow [above] tree tree' where
  onDisk := h.onDisk
  kept := h.kept
  passed := h.passed
  free p hp := by
    refine (h.free p hp).imp_right ?_
    rintro ⟨place', hplace, hopened⟩
    obtain rfl := List.mem_singleton.1 hplace
    exact ⟨above, List.mem_singleton_self above, hopened.upward habove⟩
  read p := by
    refine (h.read p).imp_right ?_
    rintro ⟨place', hplace, htouched⟩
    obtain rfl := List.mem_singleton.1 hplace
    exact ⟨above, List.mem_singleton_self above, htouched.upward habove⟩

end Tree

namespace Workspace

open Playground.Path
open Package (read?_packageDir_eq)
open Playground.Tree (Call)

/-! ### The calls that add a package -/

/-- The call that writes a file of a directory. -/
def fileCall (dir : String) (file : String × ByteArray) : Call := .write (join dir file.1) file.2

/-- The calls by which a package is added. -/
def packageCalls (importPath : String) (files : List (String × ByteArray)) : List Call :=
  .createDirs (packageDir importPath) :: files.map (fileCall (packageDir importPath))

theorem exists_calls_writeFiles (dir : String) (files : List (String × ByteArray)) (tree : Tree) :
    ∃ done, done <+: files.map (fileCall dir) ∧
      (writeFiles dir tree files).1 = tree.calls done := by
  induction files generalizing tree with
  | nil => exact ⟨[], List.prefix_rfl, rfl⟩
  | cons file files ih =>
    obtain ⟨name, content⟩ := file
    unfold writeFiles
    split
    · rename_i tree' e h
      refine ⟨[fileCall dir (name, content)], ?_, (congrArg Prod.fst h).symm⟩
      exact (List.prefix_cons_inj _).2 List.nil_prefix
    · rename_i tree' h
      obtain ⟨done, hdone, hcalls⟩ := ih tree'
      refine ⟨fileCall dir (name, content) :: done, (List.prefix_cons_inj _).2 hdone, ?_⟩
      have hfirst : (tree.call (fileCall dir (name, content))).1 = tree' := congrArg Prod.fst h
      rw [hcalls, Tree.calls_cons, hfirst]

theorem exists_calls_addPackage (w : Workspace) (importPath : String)
    (files : List (String × ByteArray)) :
    ∃ done, done <+: packageCalls importPath files ∧
      (w.addPackage importPath files).1.path = w.path.calls done := by
  unfold addPackage
  dsimp only
  split
  · rename_i tree e h
    refine ⟨[.createDirs (packageDir importPath)], ?_, (congrArg Prod.fst h).symm⟩
    exact (List.prefix_cons_inj _).2 List.nil_prefix
  · rename_i tree h
    obtain ⟨done, hdone, hcalls⟩ := exists_calls_writeFiles (packageDir importPath) files tree
    have hfirst : (w.path.call (.createDirs (packageDir importPath))).1 = tree :=
      congrArg Prod.fst h
    refine ⟨_ :: done, (List.prefix_cons_inj _).2 hdone, hcalls.trans ?_⟩
    rw [Tree.calls_cons, hfirst]

/-! ### Where they lead -/

/-- Adding a package changes nothing outside the source directory, whatever its import path. -/
theorem changesBelow_sourceDir (w : Workspace) (importPath : String)
    (files : List (String × ByteArray)) :
    Tree.ChangesBelow [[sourceDir]] w.path (w.addPackage importPath files).1.path := by
  have hdir := read?_packageDir_eq importPath
  cases hp : read? importPath with
  | none =>
    rw [hp] at hdir
    rw [path_addPackage_of_read?_eq_none w hdir]
    exact .refl _ w.path
  | some p =>
    rw [hp] at hdir
    exact (changesBelow_addPackage w hdir files).upward (List.prefix_append [sourceDir] p)

/-- A file of a package lies in the source directory, below the components of its import path,
under those of its name. -/
theorem canonical?_join_packageDir (importPath name : String) :
    canonical? (join (packageDir importPath) name) =
      (canonical? importPath).bind fun p => (canonical? name).map fun n =>
        text (sourceDir :: components p ++ components n) := by
  rw [canonical?, canonical?, canonical?, read?_join, read?_packageDir_eq]
  cases hp : read? importPath with
  | none => rfl
  | some p =>
    cases hn : read? name with
    | none => rfl
    | some n =>
      simp [components_text (isCanonical_of_read? hp), components_text (isCanonical_of_read? hn)]

/-- A written path that is joined reads back as the two paths read back and joined, and one that
was read back has neither empty components nor steps in it and reads back as it stands.  So every
file of a package lies in the source directory, below the components of the import path, and adding
a package calls for nothing else and leaves alone what lies outside. -/
theorem addPackage_stays_in_sourceDir :
    (∀ a b : String, canonical? (join a b) =
      (canonical? a).bind fun a => (canonical? b).map (join a ·)) ∧
    (∀ s q : String, canonical? s = some q →
      (∀ name ∈ components q, name ≠ "" ∧ name ≠ "." ∧ name ≠ "..") ∧ '\\' ∉ q.toList ∧
        canonical? q = some q) ∧
    (∀ importPath name : String, canonical? (join (packageDir importPath) name) =
      (canonical? importPath).bind fun p => (canonical? name).map fun n =>
        text (sourceDir :: components p ++ components n)) ∧
    ∀ (w : Workspace) (importPath : String) (files : List (String × ByteArray)),
      (∃ done, done <+: packageCalls importPath files ∧
        (w.addPackage importPath files).1.path = w.path.calls done) ∧
      Tree.ChangesBelow [[sourceDir]] w.path (w.addPackage importPath files).1.path := by
  refine ⟨canonical?_join, fun s q h => ?_, canonical?_join_packageDir,
    fun w importPath files => ?_⟩
  · have hq := isCanonical_components h
    refine ⟨fun name hname => (isName_iff.1 (hq name hname)).1, ?_, canonical?_eq_self_iff.2 hq⟩
    rw [← text_components q, backslash_notMem_text]
    exact fun name hname => (isName_iff.1 (hq name hname)).2.1
  · exact ⟨exists_calls_addPackage w importPath files, changesBelow_sourceDir w importPath files⟩

theorem components_printFile :
    canonical? "/src//fmt/./print.go" = some "src/fmt/print.go" ∧
      (∀ name ∈ components "src/fmt/print.go", name ≠ "" ∧ name ≠ "." ∧ name ≠ "..") ∧
      '\\' ∉ "src/fmt/print.go".toList ∧ canonical? "src/fmt/print.go" = some "src/fmt/print.go" :=
  ⟨by decide,
    addPackage_stays_in_sourceDir.2.1 "/src//fmt/./print.go" "src/fmt/print.go" (by decide)⟩

end Workspace

end Playground
