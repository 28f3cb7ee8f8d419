import Playground.Proofs.Tree.Gaps
import Playground.Proofs.Tree.Memory
import Playground.Workspace

/-!
# What writing changes in a composed tree

Writing to a composed tree reaches one part of it, through the hosts of mounts and the tops of
stacks, and what is read of the whole at a place depends on that part by what it reads there.

A file of that part stays where it is, and its content changes only if something was written that
leads to the same file (`Tree.fileAt?`): in memory that is the file itself, and on a disk other
paths lead to it as well, through links.  Where the part has no file, what is read changes only when
a directory or a file is made where the path broke off before (`Tree.Opens`); it hides what was
shown from behind.
-/

namespace Playground

namespace MemoryTree

variable {t t' : MemoryTree} {p q : Path} {content : ByteArray}

theorem read_of_notMem (hp : p ∉ t.files) :
    t.read p =
      .error (if t.kind p = some .dir then .isADirectory p.text else .notFound p.text) := by
  have hnone : t.files[p]? = none := Std.ExtTreeMap.getElem?_eq_none hp
  rw [read, hnone]

theorem read_congr (hfile : t'.files[p]? = t.files[p]?)
    (hdir : p ∉ t.files → (t'.kind p = some .dir ↔ t.kind p = some .dir)) :
    t'.read p = t.read p := by
  by_cases hp : p ∈ t.files
  · obtain ⟨content, hcontent⟩ := mem_files_iff.1 hp
    rw [read_eq_ok hcontent, read_eq_ok (hfile.trans hcontent)]
  · have hp' : p ∉ t'.files := by
      rw [mem_files_iff] at hp ⊢
      rwa [hfile]
    rw [read_of_notMem hp, read_of_notMem hp', if_congr (hdir hp) rfl rfl]

end MemoryTree

namespace Disk

variable {d : Disk} {base path : String} {p file : Path} {content : ByteArray}

/-- The place of the file that a written path leads to. -/
def fileAt? (d : Disk) (path : String) : Option Path :=
  match d.stat path with
  | .ok (file, .file _) => some file
  | _ => none

theorem fileAt?_eq_some_iff :
    d.fileAt? path = some file ↔ ∃ content, d.stat path = .ok (file, .file content) := by
  unfold fileAt?
  split
  · rename_i file' content h
    simp [h]
  · rename_i hother
    refine iff_of_false (by simp) ?_
    rintro ⟨content, h⟩
    exact hother file content h

theorem treeRead_of_stat (h : d.stat (under base p) = .ok (file, .file content)) :
    d.treeRead base p = .ok content := by
  have hdir : d.isDir (under base p) = false := by
    rw [isDir, h]
  have hread : d.readFile (under base p) = .ok content := by
    rw [readFile, h]
  rw [treeRead, hdir, hread]
  rfl

end Disk

namespace Tree

variable {tree tree' tree'' : Tree} {t : MemoryTree} {place p file : Path} {places : List Path}
  {dir path : String}

/-- Whether what is written to a tree goes to a disk. -/
def onDisk : Tree → Bool
  | memory _ => false
  | disk _ _ => true
  | mount host _ _ => host.onDisk
  | overlay [] => false
  | overlay (top :: _) => top.onDisk

/-- The file that a place of a tree leads to in the part that is written to.  In memory it stands at
the place itself, and on a disk where the links lead. -/
def fileAt? : Tree → Path → Option Path
  | memory t, p => if p ∈ t.files then some p else none
  | disk base d, p => d.fileAt? (Disk.under base p)
  | mount host _ _, p => host.fileAt? p
  | overlay [], _ => none
  | overlay (top :: _), p => top.fileAt? p

/-- A place of a tree breaks off at a place of the part that is written to.  In memory that is the
place itself, and on a disk the one where the path, with its links followed, finds nothing. -/
def BreaksOff : Tree → Path → Path → Prop
  | memory _, p, gap => p = gap
  | disk base d, p, gap => d.BreaksOff (Disk.under base p) gap
  | mount host _ _, p, gap => host.BreaksOff p gap
  | overlay [], _, _ => False
  | overlay (top :: _), p, gap => top.BreaksOff p gap

/-- A place is passed on the way to a place of a tree.  In memory it is above that place or the
place itself, and on a disk the path of one that is leads to it. -/
def IsPassed : Tree → Path → Path → Prop
  | memory _, below, gap => gap <+: below
  | disk base d, below, gap => d.IsPassed (Disk.under base below) gap
  | mount host _ _, below, gap => host.IsPassed below gap
  | overlay [], _, _ => False
  | overlay (top :: _), below, gap => top.IsPassed below gap

/-- What broke off at `p` may have been opened by writing below `place`: in the tree that has become
`tree'`, something is passed there on the way to a place below `place`. -/
def Opens (place : Path) (tree tree' : Tree) (p : Path) : Prop :=
  ∃ gap below, tree.BreaksOff p gap ∧ place <+: below ∧ tree'.IsPassed below gap

/-- What writing below `place` may change of a tree that has become `tree'`: a file that something
below `place` leads to, and what is shown where the part that is written to has no file and is
opened. -/
def Touches (place : Path) (tree tree' : Tree) (p : Path) : Prop :=
  (∃ file below, tree.fileAt? p = some file ∧ place <+: below ∧ tree'.fileAt? below = some file) ∨
    tree.fileAt? p = none ∧ Opens place tree tree' p

/-- How a tree is read once something was written below some places: as before, but for what that
touches.  All files are where they were, and where no file was, things are as before or opened. -/
structure ChangesBelow (places : List Path) (tree tree' : Tree) : Prop where
  onDisk : tree'.onDisk = tree.onDisk
  kept : ∀ p file, tree.fileAt? p = some file → tree'.fileAt? p = some file
  passed : ∀ below gap, tree.IsPassed below gap → tree'.IsPassed below gap
  free : ∀ p, tree.fileAt? p = none →
    (tree'.fileAt? p = none ∧ ∀ gap, tree'.BreaksOff p gap → tree.BreaksOff p gap) ∨
      ∃ place ∈ places, Opens place tree tree' p
  read : ∀ p, tree'.view.read p = tree.view.read p ∨ ∃ place ∈ places, Touches place tree tree' p

theorem fileAt?_memory : (memory t).fileAt? p = some file ↔ p = file ∧ p ∈ t.files := by
  rw [fileAt?]
  split <;> simp_all

theorem eq_of_fileAt? (hmemory : tree.onDisk = false) (h : tree.fileAt? p = some file) :
    p = file := by
  fun_induction fileAt? tree p with
  | case1 p t hp => exact Option.some.inj h
  | case2 p t hp => cases h
  | case3 p base d => cases hmemory
  | case4 p host point mounted ih => exact ih hmemory h
  | case5 p => cases h
  | case6 p top layers ih => exact ih hmemory h

theorem eq_of_breaksOff (hmemory : tree.onDisk = false) {gap : Path} (h : tree.BreaksOff p gap) :
    p = gap := by
  fun_induction BreaksOff tree p gap with
  | case1 => exact h
  | case2 => cases hmemory
  | case3 _ _ _ _ _ ih => exact ih hmemory h
  | case4 => exact h.elim
  | case5 _ _ _ _ ih => exact ih hmemory h

theorem prefix_of_isPassed (hmemory : tree.onDisk = false) {below gap : Path}
    (h : tree.IsPassed below gap) : gap <+: below := by
  fun_induction IsPassed tree below gap with
  | case1 => exact h
  | case2 => cases hmemory
  | case3 _ _ _ _ _ ih => exact ih hmemory h
  | case4 => exact h.elim
  | case5 _ _ _ _ ih => exact ih hmemory h

/-- In memory, writing below a place touches what lies below it, and what is shown from behind on
the way to it. -/
theorem Touches.of_memory (h : Touches place tree tree' p) (hmemory : tree.onDisk = false)
    (hmemory' : tree'.onDisk = false) :
    place <+: p ∨ tree.fileAt? p = none ∧ p <+: place := by
  rcases h with ⟨file, below, hfile, hbelow, hfile'⟩ | ⟨hnone, gap, below, hgap, hbelow, hpassed⟩
  · rw [eq_of_fileAt? hmemory hfile, ← eq_of_fileAt? hmemory' hfile']
    exact .inl hbelow
  · obtain rfl := eq_of_breaksOff hmemory hgap
    exact (List.prefix_or_prefix_of_prefix hbelow (prefix_of_isPassed hmemory' hpassed)).imp_right
      (⟨hnone, ·⟩)

theorem ChangesBelow.refl (places : List Path) (tree : Tree) : ChangesBelow places tree tree :=
  ⟨rfl, fun _ _ h => h, fun _ _ h => h, fun _ h => .inl ⟨h, fun _ h => h⟩, fun _ => .inl rfl⟩

theorem ChangesBelow.mono {places' : List Path} (h : ChangesBelow places tree tree')
    (hsub : places ⊆ places') : ChangesBelow places' tree tree' where
  onDisk := h.onDisk
  kept := h.kept
  passed := h.passed
  free p hp := (h.free p hp).imp_right fun ⟨place, hmem, hopened⟩ => ⟨place, hsub hmem, hopened⟩
  read p := (h.read p).imp_right fun ⟨place, hmem, htouched⟩ => ⟨place, hsub hmem, htouched⟩

theorem Opens.of_changesBelow (h : Opens place tree tree' p)
    (h' : ChangesBelow places tree' tree'') : Opens place tree tree'' p := by
  obtain ⟨gap, below, hgap, hbelow, hpassed⟩ := h
  exact ⟨gap, below, hgap, hbelow, h'.passed below gap hpassed⟩

/-- Where no file was at first and the second step opens something or finds a file, something is
opened by both steps together. -/
theorem ChangesBelow.opens (h : ChangesBelow places tree tree')
    (h' : ChangesBelow places tree' tree'') (hp : tree.fileAt? p = none)
    (hsecond : tree'.fileAt? p ≠ none ∨ ∃ place ∈ places, Opens place tree' tree'' p) :
    ∃ place ∈ places, Opens place tree tree'' p := by
  rcases h.free p hp with ⟨hnone, hgaps⟩ | ⟨place, hplace, hopened⟩
  · obtain ⟨place, hplace, gap, below, hgap, hbelow, hpassed⟩ :=
      hsecond.resolve_left (not_not_intro hnone)
    exact ⟨place, hplace, gap, below, hgaps gap hgap, hbelow, hpassed⟩
  · exact ⟨place, hplace, hopened.of_changesBelow h'⟩

theorem ChangesBelow.trans (h : ChangesBelow places tree tree')
    (h' : ChangesBelow places tree' tree'') : ChangesBelow places tree tree'' where
  onDisk := h'.onDisk.trans h.onDisk
  kept p file hfile := h'.kept p file (h.kept p file hfile)
  passed below gap hpassed := h'.passed below gap (h.passed below gap hpassed)
  free p hp := by
    rcases h.free p hp with ⟨hnone, hgaps⟩ | ⟨place, hplace, hopened⟩
    · rcases h'.free p hnone with ⟨hnone', hgaps'⟩ | hopened
      · exact .inl ⟨hnone', fun gap hgap => hgaps gap (hgaps' gap hgap)⟩
      · exact .inr (h.opens h' hp (.inr hopened))
    · exact .inr ⟨place, hplace, hopened.of_changesBelow h'⟩
  read p := by
    rcases h'.read p with hsame | ⟨place, hplace, htouched⟩
    · -- what the second step leaves is touched by the first one or by none
      rw [hsame]
      refine (h.read p).imp_right fun ⟨place, hplace, htouched⟩ => ⟨place, hplace, ?_⟩
      refine htouched.imp ?_ (And.imp_right (·.of_changesBelow h'))
      rintro ⟨file, below, hfile, hbelow, hfile'⟩
      exact ⟨file, below, hfile, hbelow, h'.kept below file hfile'⟩
    · cases hfirst : tree.fileAt? p with
      | some file =>
        have hfile := h.kept p file hfirst
        refine .inr ⟨place, hplace, ?_⟩
        rcases htouched with ⟨file', below, hfile', hbelow⟩ | ⟨hnone, -⟩
        · rw [hfile] at hfile'
          cases hfile'
          exact .inl ⟨file, below, hfirst, hbelow⟩
        · rw [hfile] at hnone
          cases hnone
      | none =>
        have hsecond : tree'.fileAt? p ≠ none ∨ ∃ place ∈ places, Opens place tree' tree'' p := by
          rcases htouched with ⟨file, below, hfile, -⟩ | ⟨-, hopened⟩
          · exact .inl (by simp [hfile])
          · exact .inr ⟨place, hplace, hopened⟩
        obtain ⟨place', hplace', hopened⟩ := h.opens h' hfirst hsecond
        exact .inr ⟨place', hplace', .inr ⟨hfirst, hopened⟩⟩

theorem ChangesBelow.mount {host host' : Tree} (h : ChangesBelow places host host') (point : Path)
    (mounted : Tree) :
    ChangesBelow places (.mount host point mounted) (.mount host' point mounted) := by
  refine ⟨h.onDisk, h.kept, h.passed, h.free, fun p => (h.read p).imp_left fun hsame => ?_⟩
  change View.mountRead _ _ _ p = View.mountRead _ _ _ p
  rw [View.mountRead, View.mountRead, hsame]

theorem ChangesBelow.overlay {top top' : Tree} (h : ChangesBelow places top top')
    (layers : List Tree) :
    ChangesBelow places (.overlay (top :: layers)) (.overlay (top' :: layers)) := by
  refine ⟨h.onDisk, h.kept, h.passed, h.free, fun p => (h.read p).imp_left fun hsame => ?_⟩
  change View.overlayRead (_ :: views layers) p = View.overlayRead (_ :: views layers) p
  rw [View.overlayRead, View.overlayRead, hsame]

/-! ### Trees held in memory -/

/-- Writing to a tree in memory changes what lies below a place, if files and directories stay and
directories are made only there or on the way. -/
theorem changesBelow_memory {t' : MemoryTree} (hkept : ∀ p ∈ t.files, p ∈ t'.files)
    (hfiles : ∀ p, ¬ place <+: p → t'.files[p]? = t.files[p]?)
    (hdirs : ∀ p, ¬ place <+: p → ¬ p <+: place →
      (t'.kind p = some .dir ↔ t.kind p = some .dir)) :
    ChangesBelow [place] (.memory t) (.memory t') := by
  have hopens : ∀ p, place <+: p ∨ p <+: place →
      ∃ place' ∈ [place], Opens place' (.memory t) (.memory t') p := by
    intro p hp
    refine ⟨place, List.mem_singleton_self place, ?_⟩
    rcases hp with hbelow | hway
    · exact ⟨p, p, rfl, hbelow, List.prefix_refl p⟩
    · exact ⟨p, place, rfl, List.prefix_refl place, hway⟩
  refine ⟨rfl, fun p file h => ?_, fun _ _ h => h, fun p hp => ?_, fun p => ?_⟩
  · rw [fileAt?_memory] at h ⊢
    exact h.imp_right (hkept p)
  · by_cases hbelow : place <+: p
    · exact .inr (hopens p (.inl hbelow))
    · refine .inl ⟨?_, fun _ h => h⟩
      rw [← Option.not_isSome_iff_eq_none, Option.isSome_iff_exists] at hp ⊢
      rintro ⟨file, hfile⟩
      obtain ⟨rfl, hmem⟩ := fileAt?_memory.1 hfile
      rw [MemoryTree.mem_files_iff, hfiles p hbelow, ← MemoryTree.mem_files_iff] at hmem
      exact hp ⟨p, fileAt?_memory.2 ⟨rfl, hmem⟩⟩
  · by_cases hp : p ∈ t.files
    · by_cases hbelow : place <+: p
      · exact .inr ⟨place, List.mem_singleton_self place, .inl ⟨p, p, fileAt?_memory.2 ⟨rfl, hp⟩,
          hbelow, fileAt?_memory.2 ⟨rfl, hkept p hp⟩⟩⟩
      · exact .inl (MemoryTree.read_congr (hfiles p hbelow) fun hnot => absurd hp hnot)
    · by_cases hway : place <+: p ∨ p <+: place
      · obtain ⟨place', hplace, hopened⟩ := hopens p hway
        exact .inr ⟨place', hplace, .inr ⟨if_neg hp, hopened⟩⟩
      · rw [not_or] at hway
        exact .inl (MemoryTree.read_congr (hfiles p hway.1) fun _ => hdirs p hway.1 hway.2)

theorem changesBelow_of_write {t' : MemoryTree} {q : Path} {content : ByteArray}
    (h : t.write q content = .ok t') (hq : place <+: q) :
    ChangesBelow [place] (.memory t) (.memory t') := by
  obtain ⟨-, hdirs, hfiles⟩ := MemoryTree.of_write h
  refine changesBelow_memory (fun p hp => ?_) (fun p hbelow => ?_) fun p hbelow hway => ?_
  · rw [MemoryTree.mem_files_iff, hfiles]
    split
    · exact ⟨content, rfl⟩
    · exact MemoryTree.mem_files_iff.1 hp
  · rw [hfiles, if_neg]
    rintro rfl
    exact hbelow hq
  · rw [hdirs]
    refine ⟨fun hdir => hdir.resolve_right fun hpre => ?_, .inl⟩
    -- a directory on the way to the file lies on the way to the place, or below it
    rcases List.prefix_or_prefix_of_prefix (hpre.trans (List.dropLast_prefix q)) hq with h | h
    · exact hway h
    · exact hbelow h

theorem changesBelow_of_createDirs {t' : MemoryTree} (h : t.createDirs place = .ok t') :
    ChangesBelow [place] (.memory t) (.memory t') := by
  obtain ⟨-, rfl⟩ := MemoryTree.of_createDirs h
  refine changesBelow_memory (fun p hp => hp) (fun p _ => rfl) fun p _ hway => ?_
  rw [MemoryTree.kind_addDirs_eq_dir_iff]
  exact ⟨fun hdir => hdir.resolve_right hway, .inl⟩

/-! ### Directories of the disk -/

/-- Writing to a directory of the disk changes the files that something below a place leads to, and
what broke off at places that are new, if all that is new is passed on the way to something below
the place. -/
theorem changesBelow_disk {base : String} {d e : Disk} (hgrows : Disk.Grows d e)
    (hfiles : ∀ p file old, d.stat (Disk.under base p) = .ok (file, .file old) →
      e.stat (Disk.under base p) = .ok (file, .file old) ∨
        ∃ below, place <+: below ∧ e.fileAt? (Disk.under base below) = some file)
    (hnew : ∀ gap, d.node? gap = none → e.node? gap ≠ none →
      ∃ below, place <+: below ∧ e.IsPassed (Disk.under base below) gap) :
    ChangesBelow [place] (.disk base d) (.disk base e) := by
  have hkept : ∀ p file, d.fileAt? (Disk.under base p) = some file →
      e.fileAt? (Disk.under base p) = some file := by
    intro p file hfile
    obtain ⟨old, hstat⟩ := Disk.fileAt?_eq_some_iff.1 hfile
    obtain ⟨new, hstat'⟩ := Disk.exists_stat_file_of_grows hgrows hstat
    exact Disk.fileAt?_eq_some_iff.2 ⟨new, hstat'⟩
  -- without a file, a path leads where it led, or it is opened
  have hfree : ∀ p, d.fileAt? (Disk.under base p) = none →
      e.stat (Disk.under base p) = d.stat (Disk.under base p) ∧
          (∀ gap, e.BreaksOff (Disk.under base p) gap → d.BreaksOff (Disk.under base p) gap) ∨
        ∃ place' ∈ [place], Opens place' (.disk base d) (.disk base e) p := by
    intro p hp
    by_cases hgap : ∀ gap, d.BreaksOff (Disk.under base p) gap → e.node? gap = none
    · refine .inl ⟨?_, fun _ => Disk.breaksOff_of_grows hgrows hgap⟩
      refine (Disk.stat_of_grows hgrows hgap).resolve_right ?_
      rintro ⟨file, old, new, hstat, -⟩
      rw [Disk.fileAt?_eq_some_iff.2 ⟨old, hstat⟩] at hp
      cases hp
    · push Not at hgap
      obtain ⟨gap, hgap, hnode⟩ := hgap
      obtain ⟨below, hbelow, hpassed⟩ := hnew gap hgap.node?_eq_none hnode
      exact .inr ⟨place, List.mem_singleton_self place, gap, below, hgap, hbelow, hpassed⟩
  refine ⟨rfl, hkept, fun _ _ h => h.of_grows hgrows, fun p hp => ?_, fun p => ?_⟩
  · rcases hfree p hp with ⟨hstat, hgaps⟩ | hopened
    · refine .inl ⟨?_, hgaps⟩
      change e.fileAt? (Disk.under base p) = none
      rw [Disk.fileAt?, hstat]
      exact hp
    · exact .inr hopened
  · cases hfile : d.fileAt? (Disk.under base p) with
    | none =>
      rcases hfree p hfile with ⟨hstat, -⟩ | ⟨place', hplace, hopened⟩
      · refine .inl ?_
        change e.treeRead base p = d.treeRead base p
        rw [Disk.treeRead, Disk.treeRead, Disk.isDir, Disk.isDir, Disk.readFile, Disk.readFile,
          hstat]
      · exact .inr ⟨place', hplace, .inr ⟨hfile, hopened⟩⟩
    | some file =>
      obtain ⟨old, hstat⟩ := Disk.fileAt?_eq_some_iff.1 hfile
      rcases hfiles p file old hstat with hstat' | ⟨below, hbelow, hfile'⟩
      · exact .inl ((Disk.treeRead_of_stat hstat').trans (Disk.treeRead_of_stat hstat).symm)
      · exact .inr ⟨place, List.mem_singleton_self place, .inl ⟨file, below, hfile, hbelow, hfile'⟩⟩

theorem changesBelow_of_createDirs_disk {base dir : String} {d : Disk} {q : Path}
    (hq : place <+: q) (hdir : Disk.IsAbove (Disk.under base q) dir) :
    ChangesBelow [place] (.disk base d) (.disk base (d.createDirs dir).1) := by
  have hadds := Disk.addsDirs_createDirs dir d
  refine changesBelow_disk hadds.grows (fun p file old hstat => .inl (hadds.stat_file hstat)) ?_
  intro gap hfree hnew
  obtain ⟨dir', node, habove, hstat⟩ := Disk.isPassed_of_createDirs hfree hnew
  exact ⟨q, hq, dir', node, hdir.trans habove, hstat⟩

theorem changesBelow_of_writeFile {base : String} {d e : Disk} {q : Path} {content : ByteArray}
    (h : d.writeFile (Disk.under base q) content = .ok e) (hq : place <+: q) :
    ChangesBelow [place] (.disk base d) (.disk base e) := by
  obtain ⟨written, hwritten, hfiles⟩ := Disk.stat_of_writeFile h
  refine changesBelow_disk (Disk.grows_of_writeFile h) (fun p file old hstat => ?_) ?_
  · have hstat' := hfiles _ file old hstat
    by_cases hfile : written = file
    · subst hfile
      exact .inr ⟨q, hq, Disk.fileAt?_eq_some_iff.2 ⟨content, hwritten⟩⟩
    · rw [if_neg hfile] at hstat'
      exact .inl hstat'
  · exact fun gap hfree hnew => ⟨q, hq, Disk.isPassed_of_writeFile h hfree hnew⟩

theorem changesBelow_of_treeWrite (base : String) (d : Disk) {q : Path} (content : ByteArray)
    (hq : place <+: q) :
    ChangesBelow [place] (.disk base d) (.disk base (d.treeWrite base q content).1) := by
  have hdirs : ChangesBelow [place] (.disk base d) (.disk base
      ((DiskPath.parent? (Disk.under base q)).elim (d, .ok ()) d.createDirs).1) := by
    cases hparent : DiskPath.parent? (Disk.under base q) with
    | none => exact .refl _ _
    | some parent => exact changesBelow_of_createDirs_disk hq (.single hparent)
  unfold Disk.treeWrite
  dsimp only
  split
  · rename_i e fault hmade
    rw [hmade] at hdirs
    exact hdirs
  · rename_i e hmade
    rw [hmade] at hdirs
    split
    · exact hdirs
    · rename_i e' hwrite
      exact hdirs.trans (changesBelow_of_writeFile hwrite hq)

theorem changesBelow_of_treeCreateDirs (base : String) (d : Disk) (q : Path) :
    ChangesBelow [q] (.disk base d) (.disk base (d.treeCreateDirs base q).1) := by
  have hdirs := changesBelow_of_createDirs_disk (d := d) (List.prefix_refl q)
    (.refl : Disk.IsAbove (Disk.under base q) _)
  unfold Disk.treeCreateDirs
  split <;>
  · rename_i hmade
    rw [hmade] at hdirs
    exact hdirs

/-! ### Calls -/

theorem changesBelow_write {q : Path} (content : ByteArray) (hpath : Path.read? path = some q)
    (hq : place <+: q) (tree : Tree) :
    ChangesBelow [place] tree (tree.write content path).1 := by
  fun_induction Tree.write content path tree with
  | case1 t =>
    unfold afterMemory
    split
    · rename_i t' h
      obtain ⟨q', hq', hwrite⟩ := Results.bind_eq_ok.1 h
      obtain rfl := Option.some.inj (hpath.symm.trans (MemoryTree.locate_eq_ok.1 hq'))
      exact changesBelow_of_write hwrite hq
    · exact .refl _ _
  | case2 base d =>
    rw [afterDisk, MemoryTree.locate_eq_ok.2 hpath]
    exact changesBelow_of_treeWrite base d content hq
  | case3 host point mounted host' r h ih =>
    rw [h] at ih
    exact ih.mount point mounted
  | case4 => exact .refl _ _
  | case5 top layers top' r h ih =>
    rw [h] at ih
    exact ih.overlay layers

theorem changesBelow_createDirs (hpath : Path.read? path = some place) (tree : Tree) :
    ChangesBelow [place] tree (tree.createDirs path).1 := by
  fun_induction Tree.createDirs path tree with
  | case1 t =>
    unfold afterMemory
    split
    · rename_i t' h
      obtain ⟨q, hq, hmake⟩ := Results.bind_eq_ok.1 h
      obtain rfl := Option.some.inj (hpath.symm.trans (MemoryTree.locate_eq_ok.1 hq))
      exact changesBelow_of_createDirs hmake
    · exact .refl _ _
  | case2 base d =>
    rw [afterDisk, MemoryTree.locate_eq_ok.2 hpath]
    exact changesBelow_of_treeCreateDirs base d place
  | case3 host point mounted host' r h ih =>
    rw [h] at ih
    exact ih.mount point mounted
  | case4 => exact .refl _ _
  | case5 top layers top' r h ih =>
    rw [h] at ih
    exact ih.overlay layers

theorem write_of_read?_eq_none (content : ByteArray) (hpath : Path.read? path = none)
    (tree : Tree) : (tree.write content path).1 = tree := by
  fun_induction Tree.write content path tree with
  | case1 t =>
    rw [MemoryTree.writeAt, View.locate, hpath]
    rfl
  | case2 base d =>
    rw [afterDisk, View.locate, hpath]
  | case3 host point mounted host' r h ih =>
    rw [h] at ih
    exact congrArg (Tree.mount · point mounted) ih
  | case4 => rfl
  | case5 top layers top' r h ih =>
    rw [h] at ih
    exact congrArg (fun top => Tree.overlay (top :: layers)) ih

theorem createDirs_of_read?_eq_none (hpath : Path.read? path = none) (tree : Tree) :
    tree.createDirs path = (tree, .error (.invalidPath path)) := by
  fun_induction Tree.createDirs path tree with
  | case1 t =>
    rw [MemoryTree.createDirsAt, View.locate, hpath]
    rfl
  | case2 base d =>
    rw [afterDisk, View.locate, hpath]
  | case3 host point mounted host' r h ih =>
    rw [h] at ih
    cases ih
    rfl
  | case4 => rfl
  | case5 top layers top' r h ih =>
    rw [h] at ih
    cases ih
    rfl

end Tree

/-! ### Packages -/

namespace Workspace

variable {place : Path} {dir importPath : String}

theorem changesBelow_writeFiles (hdir : Path.read? dir = some place)
    (files : List (String × ByteArray)) (tree : Tree) :
    Tree.ChangesBelow [place] tree (writeFiles dir tree files).1 := by
  induction files generalizing tree with
  | nil => exact .refl _ tree
  | cons file files ih =>
    obtain ⟨name, content⟩ := file
    have hfirst : Tree.ChangesBelow [place] tree (tree.write content (Path.join dir name)).1 := by
      have hread := Path.read?_join dir name
      rw [hdir, Option.bind_some] at hread
      cases hname : Path.read? name with
      | none =>
        rw [hname] at hread
        rw [Tree.write_of_read?_eq_none content hread]
        exact .refl _ tree
      | some below =>
        rw [hname] at hread
        exact Tree.changesBelow_write content hread (List.prefix_append place below) tree
    unfold writeFiles
    split
    · rename_i tree' e h
      rw [h] at hfirst
      exact hfirst
    · rename_i tree' h
      rw [h] at hfirst
      exact hfirst.trans (ih tree')

theorem root_addPackage (w : Workspace) (importPath : String)
    (files : List (String × ByteArray)) : (w.addPackage importPath files).1.root = w.root := by
  unfold addPackage
  dsimp only
  split <;> rfl

/-- Adding a package, successful or not, changes what lies below its directory. -/
theorem changesBelow_addPackage (w : Workspace)
    (hdir : Path.read? (packageDir importPath) = some place) (files : List (String × ByteArray)) :
    Tree.ChangesBelow [place] w.path (w.addPackage importPath files).1.path := by
  have hmake := Tree.changesBelow_createDirs hdir w.path
  unfold addPackage
  dsimp only
  split
  · rename_i tree e h
    rw [h] at hmake
    exact hmake
  · rename_i tree h
    rw [h] at hmake
    exact hmake.trans (changesBelow_writeFiles hdir files tree)

theorem path_addPackage_of_read?_eq_none (w : Workspace)
    (hdir : Path.read? (packageDir importPath) = none) (files : List (String × ByteArray)) :
    (w.addPackage importPath files).1.path = w.path := by
  unfold addPackage
  dsimp only
  rw [Tree.createDirs_of_read?_eq_none hdir]

end Workspace

end Playground
