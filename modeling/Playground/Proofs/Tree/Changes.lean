import Playground.Proofs.Text.Lines
import Playground.Proofs.Tree.Components
import Playground.Proofs.Tree.Walk

/-!
# What changes a disk

Directories are made where nothing was (`AddsDirs`), and none where something stands in the way
(`makeDirs_eq_self`).  Writing puts a file where the path leads, and moving puts it where the path
points (`of_writeFile`, `of_rename`); neither makes a way that was not there.
-/

namespace Playground.Disk

variable {d d' e : Disk} {purpose purpose' : Purpose} {path source : String} {links : Nat}
  {place p q : Path} {todo : List String} {node : Node} {spot spot' : Spot} {content : ByteArray}

/-! ### Written paths -/

/-- A written path that the disk looks up. -/
structure IsWritten (path : String) : Prop where
  printable : ¬ path.toList.contains '\x00' = true
  nonempty : path ≠ ""
  short : ¬ pathLimit ≤ Text.byteLength path.toList

/-- Where the walk along a written path starts. -/
def start (d : Disk) (path : String) : Path := if DiskPath.isAbsolute path then [] else d.workingDir

theorem IsWritten.locate_eq (h : IsWritten path) :
    d.locate purpose path = d.walk purpose linkLimit (d.start path) (names path) := by
  rw [locate, if_neg h.printable, if_neg h.nonempty, if_neg h.short]
  rfl

theorem isWritten_of_locate (h : d.locate purpose path = .ok spot) : IsWritten path := by
  unfold locate at h
  split at h
  · cases h
  · rename_i hprintable
    split at h
    · cases h
    · rename_i hnonempty
      split at h
      · cases h
      · rename_i hshort
        exact ⟨hprintable, hnonempty, hshort⟩

theorem leads_of_locate (h : d.locate purpose path = .ok spot) :
    d.Leads purpose linkLimit (d.start path) (names path) spot := by
  rw [(isWritten_of_locate h).locate_eq] at h
  exact walk_eq_ok_iff.1 h

theorem locate_of_leads (h : d.locate purpose path = .ok spot)
    (hworking : e.workingDir = d.workingDir)
    (hleads : e.Leads purpose' linkLimit (d.start path) (names path) spot') :
    e.locate purpose' path = .ok spot' := by
  have hstart : e.start path = d.start path := by rw [start, start, hworking]
  rw [(isWritten_of_locate h).locate_eq, hstart]
  exact walk_eq_ok_iff.2 hleads

theorem stat_eq_ok_iff :
    d.stat path = .ok (p, node) ↔ d.locate .content path = .ok (.taken p node) := by
  unfold stat
  cases h : d.locate .content path with
  | error e => simp
  | ok spot => cases spot <;> simp

theorem stat_transfer {content' : ByteArray} (h : d.stat path = .ok (p, .file content))
    (hways : KeepsWays d e) (hend : e.node? p = some (.file content')) :
    e.stat path = .ok (p, .file content') := by
  rw [stat_eq_ok_iff] at h ⊢
  exact locate_of_leads h hways.workingDir
    ((leads_of_locate h).transfer hways hend (.inr ⟨rfl, rfl⟩))

theorem node?_of_stat (h : d.stat path = .ok (p, .file content)) :
    p ≠ [] ∧ d.node? p = some (.file content) :=
  (leads_of_locate (stat_eq_ok_iff.1 h)).of_taken (by simp)

theorem readFile_eq_ok_iff :
    d.readFile path = .ok content ↔ ∃ p, d.stat path = .ok (p, .file content) := by
  unfold readFile
  split
  · rename_i e h
    simp [h]
  · rename_i p content' h
    simp [h]
  · rename_i found hother h
    rw [h]
    constructor
    · rintro ⟨⟩
    · rintro ⟨p, hp⟩
      cases hp
      exact absurd rfl (hother p content)

theorem getLast?_names (h : DiskPath.endsInSeparator path = true) :
    (names path).getLast? = some "" := by
  obtain ⟨front, hfront⟩ := List.getLast?_eq_some_iff.1 (beq_iff_eq.1 h)
  rw [names, hfront, Text.splitOn_concat, List.map_append, List.map_singleton,
    List.getLast?_concat]

theorem getLast?_names_ne (hne : path ≠ "") (h : DiskPath.endsInSeparator path = false) :
    (names path).getLast? ≠ some "" := by
  intro hlast
  obtain ⟨front, hfront⟩ := List.getLast?_eq_some_iff.1 hlast
  obtain ⟨pieces, last, hsplit, hpieces, hempty⟩ := List.map_eq_append_iff.1 hfront
  obtain ⟨piece, rfl, hpiece⟩ := List.map_eq_singleton_iff.1 hempty
  obtain rfl : piece = [] := String.ofList_injective hpiece
  have hglue := Text.glue_splitOn '/' path.toList
  rw [hsplit] at hglue
  by_cases hnil : pieces = []
  · rw [hnil] at hglue
    exact hne (String.toList_inj.1 hglue.symm)
  · rw [Text.glue_append hnil (List.cons_ne_nil _ _)] at hglue
    rw [DiskPath.endsInSeparator, ← hglue, Text.glue, List.getLast?_concat] at h
    cases h

theorem endsInSeparator_of_locate (h : d.locate purpose path = .ok spot) (hspot : spot.IsForFile p)
    (hfree : spot = .free p → purpose = .file) (hpurpose : purpose ≠ .entry)
    (hworking : IsDirectory d d.workingDir) : DiskPath.endsInSeparator path = false := by
  have hstart : IsDirectory d (d.start path) := by
    unfold start
    split
    · exact .root
    · exact hworking
  by_contra hends
  exact (leads_of_locate h).getLast?_ne hspot hfree hpurpose hstart
    (getLast?_names (by simpa using hends))

/-! ### Directories are added -/

/-- A disk that has some more directories than another. -/
structure AddsDirs (d e : Disk) : Prop where
  workingDir : e.workingDir = d.workingDir
  node : ∀ place, e.node? place = d.node? place ∨ d.node? place = none ∧ e.node? place = some .dir

theorem AddsDirs.refl (d : Disk) : AddsDirs d d := ⟨rfl, fun _ => .inl rfl⟩

theorem AddsDirs.trans (h : AddsDirs d d') (h' : AddsDirs d' e) : AddsDirs d e where
  workingDir := h'.workingDir.trans h.workingDir
  node place := by
    rcases h.node place with hnode | ⟨hfree, hdir⟩
    · rw [← hnode]
      exact h'.node place
    · rcases h'.node place with hnode | ⟨hfree', -⟩
      · exact .inr ⟨hfree, hnode.trans hdir⟩
      · rw [hdir] at hfree'
        cases hfree'

theorem AddsDirs.node?_eq (h : AddsDirs d e) (hnode : d.node? p = some node) :
    e.node? p = some node := by
  rcases h.node p with hsame | ⟨hfree, -⟩
  · rw [hsame, hnode]
  · rw [hnode] at hfree
    cases hfree

theorem AddsDirs.keepsWays (h : AddsDirs d e) : KeepsWays d e :=
  ⟨h.workingDir, fun hnode _ => h.node?_eq hnode⟩

theorem addsDirs_put (hp : p ≠ []) (hfree : d.node? p = none) : AddsDirs d (d.put p .dir) where
  workingDir := rfl
  node place := by
    rw [node?_put hp]
    split
    · rename_i he
      exact .inr ⟨he ▸ hfree, rfl⟩
    · exact .inl rfl

theorem put_of_makeDir (h : d.makeDir path = .ok e) :
    ∃ p, p ≠ [] ∧ d.node? p = none ∧ e = d.put p .dir ∧ e.stat path = .ok (p, .dir) := by
  unfold makeDir at h
  split at h
  · cases h
  · rename_i p hlocate
    cases h
    have hleads := leads_of_locate hlocate
    refine ⟨p, hleads.of_free.1, hleads.of_free.2, rfl, ?_⟩
    rw [stat_eq_ok_iff]
    exact locate_of_leads hlocate rfl hleads.put_dir
  · cases h

theorem of_makeDir (h : d.makeDir path = .ok e) :
    AddsDirs d e ∧ ∃ p, e.stat path = .ok (p, .dir) := by
  obtain ⟨p, hp, hfree, rfl, hstat⟩ := put_of_makeDir h
  exact ⟨addsDirs_put hp hfree, p, hstat⟩

theorem exists_stat_of_isDir (h : d.isDir path = true) : ∃ p, d.stat path = .ok (p, .dir) := by
  unfold isDir at h
  split at h
  · rename_i p hstat
    exact ⟨p, hstat⟩
  · cases h

/-- Making directories adds some, also when it fails. -/
theorem addsDirs_makeDirs (paths : List String) (d : Disk) : AddsDirs d (d.makeDirs paths).1 := by
  fun_induction makeDirs d paths with
  | case1 d => exact .refl d
  | case2 _ _ _ _ hmade => exact (of_makeDir hmade).1
  | case3 _ _ _ _ _ _ habove ih =>
    rw [habove] at ih
    exact ih
  | case4 _ _ _ _ _ habove _ hmade ih =>
    rw [habove] at ih
    exact ih.trans (of_makeDir hmade).1
  | case5 _ _ _ _ _ habove _ _ ih =>
    rw [habove] at ih
    exact ih
  | case6 d => exact .refl d

theorem addsDirs_createDirs (path : String) (d : Disk) : AddsDirs d (d.createDirs path).1 := by
  unfold createDirs
  split
  · exact .refl d
  · exact addsDirs_makeDirs _ d

theorem AddsDirs.stat_file (h : AddsDirs d e) (hstat : d.stat path = .ok (p, .file content)) :
    e.stat path = .ok (p, .file content) :=
  stat_transfer hstat h.keepsWays (h.node?_eq (node?_of_stat hstat).2)

theorem exists_stat_of_makeDirs {above : List String}
    (h : d.makeDirs (path :: above) = (e, .ok ())) : ∃ p, e.stat path = .ok (p, .dir) := by
  have hstands : ∀ {d : Disk} {fault : Fault},
      (d, if d.isDir path = true then Except.ok () else Except.error fault) = (e, .ok ()) →
        ∃ p, e.stat path = .ok (p, .dir) := by
    intro d fault h
    by_cases hdir : d.isDir path = true
    · rw [if_pos hdir] at h
      cases h
      exact exists_stat_of_isDir hdir
    · rw [if_neg hdir] at h
      cases h
  rw [makeDirs] at h
  split at h
  · rename_i hmade
    cases h
    exact (of_makeDir hmade).2
  · split at h
    · cases h
    · split at h
      · rename_i hmade
        cases h
        exact (of_makeDir hmade).2
      · exact hstands h
  · exact hstands h

/-- Where something that is no directory to come stands in the way, none is made. -/
theorem makeDirs_eq_self {above : List String}
    (hblocked : d.locate .entry path = .error .notADirectory ∨
      ∃ p node, d.locate .entry path = .ok (.taken p node)) :
    (d.makeDirs (path :: above)).1 = d := by
  have hmake : ∃ e, e ≠ .missing ∧ d.makeDir path = .error e := by
    rcases hblocked with h | ⟨p, node, h⟩
    · exact ⟨.notADirectory, by decide, by rw [makeDir, h]⟩
    · exact ⟨.alreadyThere, by decide, by rw [makeDir, h]⟩
  obtain ⟨e, he, hmake⟩ := hmake
  rw [makeDirs, hmake]
  cases e <;> first | rfl | exact absurd rfl he

/-! ### Writing and moving files -/

/-- Writing puts the file where the path leads. -/
theorem of_writeFile (h : d.writeFile path content = .ok e) : ∃ p spot,
    d.locate .file path = .ok spot ∧ spot.IsForFile p ∧ e = d.put p (.file content) := by
  unfold writeFile at h
  split at h
  · cases h
  · rename_i p hlocate
    cases h
    exact ⟨p, _, hlocate, rfl, rfl⟩
  · rename_i p old hlocate
    cases h
    exact ⟨p, _, hlocate, rfl, rfl⟩
  · cases h

/-- What is written is found where the path leads, and every file stays where it is, with its
content unless it is the one that was written. -/
theorem stat_of_writeFile (h : d.writeFile path content = .ok e) :
    ∃ p, e.stat path = .ok (p, .file content) ∧
      ∀ other q old, d.stat other = .ok (q, .file old) →
        e.stat other = .ok (q, .file (if p = q then content else old)) := by
  obtain ⟨p, spot, hlocate, hspot, rfl⟩ := of_writeFile h
  have hleads := leads_of_locate hlocate
  obtain ⟨hp, hfree⟩ := hleads.of_isForFile hspot
  refine ⟨p, stat_eq_ok_iff.2 (locate_of_leads hlocate rfl (hleads.content_put_file hspot)), ?_⟩
  intro other q old hstat
  refine stat_transfer hstat (keepsWays_put hp hfree) ?_
  rw [node?_put hp, (node?_of_stat hstat).2]
  split <;> rfl

/-- What is written stands where the path points, unless a link stood there. -/
theorem locate_of_writeFile
    (hlink : ∀ q target, d.locate .entry path ≠ .ok (.taken q (.link target)))
    (h : d.writeFile path content = .ok e) :
    ∃ p, e = d.put p (.file content) ∧ p ≠ [] ∧
      (∀ node, d.node? p = some node → node.isWay = false) ∧
      e.locate .entry path = .ok (.taken p (.file content)) := by
  obtain ⟨p, spot, hlocate, hspot, rfl⟩ := of_writeFile h
  have hleads := leads_of_locate hlocate
  obtain ⟨hp, hfree⟩ := hleads.of_isForFile hspot
  refine ⟨p, rfl, hp, hfree, locate_of_leads hlocate rfl (hleads.put_file hspot ?_)⟩
  exact fun q target hleads => hlink q target (locate_of_leads hlocate rfl hleads)

/-- A place for something that is moved: a free one, or one where no directory is. -/
def Spot.IsReplaced : Spot → Path → Prop
  | .free place, p => place = p
  | .taken place node, p => place = p ∧ node ≠ .dir

theorem Leads.of_isReplaced (h : d.Leads purpose links place todo spot)
    (hspot : spot.IsReplaced p) : p ≠ [] ∧ d.node? p ≠ some .dir := by
  cases spot with
  | free =>
    cases hspot
    simp [h.of_free]
  | taken _ node =>
    obtain ⟨rfl, hdir⟩ := hspot
    simp [h.of_taken hdir, hdir]

theorem of_rename (hsource : d.locate .entry source = .ok (.taken p (.file content)))
    (h : d.rename source path = .ok e) : ∃ q spot,
      d.locate .entry path = .ok spot ∧ spot.IsReplaced q ∧
        DiskPath.endsInSeparator path = false ∧ e = d.move p q (.file content) := by
  rw [rename, hsource] at h
  cases htarget : d.locate .entry path with
  | error fault =>
    rw [htarget] at h
    cases h
  | ok spot =>
    simp only [htarget] at h
    split at h
    · cases h
    · rename_i hends
      rw [Bool.not_eq_true, Bool.or_eq_false_iff] at hends
      split at h
      · cases h
      · rename_i q node hdir
        cases h
        exact ⟨q, _, rfl, ⟨rfl, hdir⟩, hends.2, rfl⟩
      · rename_i q
        cases h
        exact ⟨q, _, rfl, rfl, hends.2, rfl⟩

/-- A file is not moved only when the target leads to no file, if both are written like files. -/
theorem stat_ne_of_rename_eq_error {fault : Fault}
    (hsource : d.locate .entry source = .ok (.taken p (.file content)))
    (hsourceEnds : DiskPath.endsInSeparator source = false)
    (hends : DiskPath.endsInSeparator path = false) (h : d.rename source path = .error fault)
    {content' : ByteArray} : d.stat path ≠ .ok (q, .file content') := by
  intro hstat
  have hlocate := stat_eq_ok_iff.1 hstat
  obtain ⟨p', node, hleads, hdir⟩ := (leads_of_locate hlocate).entry_of_file
  have htarget := locate_of_leads hlocate rfl hleads
  rw [rename, hsource, htarget] at h
  cases node with
  | dir => exact hdir rfl
  | file | link => simp [hsourceEnds, hends] at h

theorem keepsWays_move (hp : p ≠ []) (hq : q ≠ [])
    (hold : ∀ node, d.node? p = some node → node.isWay = false)
    (hnew : ∀ node, d.node? q = some node → node.isWay = false) :
    KeepsWays d (d.move p q node) where
  workingDir := rfl
  node := by
    intro place found hnode hway
    rw [node?_move hp hq, if_neg, if_neg, hnode]
    · rintro rfl
      simp [hold _ hnode] at hway
    · rintro rfl
      simp [hnew _ hnode] at hway

/-- A file that is moved is found where its new path leads, unless a link stood there. -/
theorem stat_of_rename (hsource : d.locate .entry source = .ok (.taken p (.file content)))
    (hlink : ∀ q target, d.locate .entry path ≠ .ok (.taken q (.link target)))
    (h : d.rename source path = .ok e) : ∃ q, e.stat path = .ok (q, .file content) := by
  obtain ⟨q, spot, hlocate, hspot, hends, rfl⟩ := of_rename hsource h
  have hleads := leads_of_locate hlocate
  obtain ⟨hp, hfile⟩ := (leads_of_locate hsource).of_taken (by simp)
  have hq := (hleads.of_isReplaced hspot).1
  have hforFile : spot.IsForFile q := by
    cases spot with
    | free => exact hspot
    | taken place node =>
      obtain ⟨rfl, hdir⟩ := hspot
      cases node with
      | file => rfl
      | dir => exact absurd rfl hdir
      | link target => exact absurd hlocate (hlink place target)
  have hways : KeepsWays d (d.move p q (.file content)) := by
    refine keepsWays_move hp hq (fun node hnode => ?_) (hleads.of_isForFile hforFile).2
    cases hfile.symm.trans hnode
    rfl
  have hmoved : (d.move p q (.file content)).node? q = some (.file content) := by
    rw [node?_move hp hq, if_pos rfl]
  have hlast := getLast?_names_ne (isWritten_of_locate hlocate).nonempty hends
  exact ⟨q, stat_eq_ok_iff.2
    (locate_of_leads hlocate rfl (hleads.content_of_entry hforFile hlast hways hmoved))⟩

theorem keepsWays_of_put (hp : p ≠ []) : KeepsWays (d.put p (.file content)) d where
  workingDir := rfl
  node := by
    intro place node hnode hway
    rw [node?_put hp] at hnode
    split at hnode
    · cases hnode
      cases hway
    · exact hnode

theorem keepsWays_of_move (hp : p ≠ []) (hq : q ≠ []) :
    KeepsWays (d.move p q (.file content)) d where
  workingDir := rfl
  node := by
    intro place node hnode hway
    rw [node?_move hp hq] at hnode
    split at hnode
    · cases hnode
      cases hway
    · split at hnode
      · cases hnode
      · exact hnode

end Playground.Disk
