import Playground.Proofs.Results
import Playground.Tree.Memory
import Mathlib.Data.List.Infix

/-!
# Trees held in memory: what writing changes

A tree that was made by writing is closed: whatever lies in it has a name at every step and lies in
a directory.  Writing a file and making a directory add the directories on the way, and one file.
The source files of a directory are settled by the files that lie directly in it, so a write
elsewhere leaves their listing as it was.
-/

namespace Playground

namespace Path

variable {dir p q : Path} {name : String}

theorem mem_onTheWay : q ∈ onTheWay p ↔ q ≠ [] ∧ q <+: p := by
  induction p generalizing q with
  | nil => simp [onTheWay]
  | cons name p ih =>
    simp only [onTheWay, List.mem_cons, List.mem_map, ih, List.prefix_cons_iff]
    constructor
    · rintro (rfl | ⟨r, ⟨-, hr⟩, rfl⟩)
      · exact ⟨by simp, .inr ⟨[], rfl, List.nil_prefix⟩⟩
      · exact ⟨by simp, .inr ⟨r, rfl, hr⟩⟩
    · rintro ⟨hq, rfl | ⟨r, rfl, hr⟩⟩
      · exact absurd rfl hq
      · by_cases h : r = []
        · exact .inl (by rw [h])
        · exact .inr ⟨r, ⟨h, hr⟩, rfl⟩

theorem isAbove_iff : p.isAbove q = true ↔ p <+: q ∧ p ≠ q := by
  simp only [isAbove, Bool.and_eq_true, List.isPrefixOf_iff_prefix, decide_eq_true_eq]
  refine and_congr_right fun h => ⟨?_, fun hne => ?_⟩
  · rintro hlt rfl
    exact absurd hlt (lt_irrefl _)
  · have hle := h.length_le
    have : p.length ≠ q.length := fun he => hne (h.eq_of_length he)
    omega

theorem nameIn?_eq_some : nameIn? dir p = some name ↔ p = dir ++ [name] := by
  unfold nameIn?
  constructor
  · intro h
    split at h
    · rename_i hd
      obtain ⟨ys, rfl⟩ := List.getLast?_eq_some_iff.1 h
      rw [List.dropLast_concat] at hd
      rw [hd]
    · cases h
  · rintro rfl
    simp

end Path

namespace Entry

variable {a b c : Entry}

theorem le_iff :
    le a b = true ↔ a.name < b.name ∨ a.name = b.name ∧ (a.kind = .file ∨ b.kind = .dir) := by
  simp [le]

theorem lt_trichotomy_name (a b : Entry) :
    a.name < b.name ∨ a.name = b.name ∨ b.name < a.name := by
  by_cases h : a.name < b.name
  · exact .inl h
  · by_cases h' : b.name < a.name
    · exact .inr (.inr h')
    · exact .inr (.inl (String.le_antisymm (String.not_lt.1 h') (String.not_lt.1 h)))

theorem le_total (a b : Entry) : (le a b || le b a) = true := by
  rw [Bool.or_eq_true, le_iff, le_iff]
  rcases lt_trichotomy_name a b with h | h | h
  · exact .inl (.inl h)
  · cases ha : a.kind with
    | file => exact .inl (.inr ⟨h, .inl rfl⟩)
    | dir => exact .inr (.inr ⟨h.symm, .inr rfl⟩)
  · exact .inr (.inl h)

theorem le_trans (hab : le a b = true) (hbc : le b c = true) : le a c = true := by
  rw [le_iff] at *
  rcases hab with hab | ⟨hab, hk⟩
  · rcases hbc with hbc | ⟨hbc, -⟩
    · exact .inl (String.lt_trans hab hbc)
    · exact .inl (hbc ▸ hab)
  · rcases hbc with hbc | ⟨hbc, hk'⟩
    · exact .inl (hab ▸ hbc)
    · refine .inr ⟨hab.trans hbc, ?_⟩
      rcases hk with hk | hk
      · exact .inl hk
      · exact .inr (hk'.resolve_left (by simp [hk]))

theorem le_antisymm (hab : le a b = true) (hba : le b a = true) : a = b := by
  rw [le_iff] at *
  rcases hab with hab | ⟨hab, hk⟩
  · rcases hba with hba | ⟨hba, -⟩
    · exact absurd hab (String.lt_asymm hba)
    · exact absurd hab (hba ▸ String.lt_irrefl _)
  · rcases hba with hba | ⟨-, hk'⟩
    · exact absurd hba (hab ▸ String.lt_irrefl _)
    · obtain ⟨name, kind⟩ := a
      obtain ⟨name', kind'⟩ := b
      cases kind <;> cases kind' <;> simp_all

theorem pairwise_sort (es : List Entry) : (sort es).Pairwise fun a b => le a b = true :=
  @List.pairwise_mergeSort Entry le (fun _ _ _ => le_trans) le_total es

theorem sort_perm (es : List Entry) : (sort es).Perm es := List.mergeSort_perm es le

theorem eq_of_perm {es es' : List Entry} (hs : es.Pairwise fun a b => le a b = true)
    (hs' : es'.Pairwise fun a b => le a b = true) (h : es.Perm es') : es = es' :=
  h.eq_of_pairwise (fun _ _ _ _ => le_antisymm) hs hs'

end Entry

namespace MemoryTree

variable {t t' : MemoryTree} {dir p q : Path} {s name : String} {content : ByteArray}

/-! ### Places -/

theorem kind_eq_file_iff : t.kind p = some .file ↔ t.kind p ≠ some .dir ∧ p ∈ t.files := by
  unfold kind
  split
  · simp
  · split <;> simp_all [Std.ExtTreeMap.contains_iff_mem]

theorem kind_eq_none_iff : t.kind p = none ↔ t.kind p ≠ some .dir ∧ p ∉ t.files := by
  unfold kind
  split
  · simp
  · split <;> simp_all [Std.ExtTreeMap.contains_iff_mem]

theorem kind_congr (hdir : t.kind p = some .dir ↔ t'.kind p = some .dir)
    (hfile : p ∈ t.files ↔ p ∈ t'.files) : t.kind p = t'.kind p := by
  cases h' : t'.kind p with
  | none =>
    rw [kind_eq_none_iff] at h' ⊢
    exact ⟨fun h => h'.1 (hdir.1 h), fun h => h'.2 (hfile.1 h)⟩
  | some k =>
    cases k with
    | dir => exact hdir.2 h'
    | file =>
      rw [kind_eq_file_iff] at h' ⊢
      exact ⟨fun h => h'.1 (hdir.1 h), hfile.2 h'.2⟩

theorem list_of_dir (h : t.kind p = some .dir) : t.view.list p = .ok (t.entries p) := by
  change t.list p = _
  rw [list, h]

theorem mem_files_iff : p ∈ t.files ↔ ∃ content, t.files[p]? = some content := by
  rw [← Std.ExtTreeMap.isSome_getElem?_iff_mem, Option.isSome_iff_exists]

theorem read_eq_ok (h : t.files[p]? = some content) : t.read p = .ok content := by
  rw [read, h]

/-! ### Growing -/

theorem kind_addDirs_eq_dir_iff :
    (t.addDirs p).kind q = some .dir ↔ t.kind q = some .dir ∨ q <+: p := by
  rw [kind_eq_dir_iff, kind_eq_dir_iff]
  have hmem : q ∈ (t.addDirs p).dirs ↔ q ∈ t.dirs ∨ q ≠ [] ∧ q <+: p := by
    rw [addDirs, Std.ExtTreeSet.mem_insertMany_list, Path.mem_onTheWay.symm,
      List.contains_iff_mem]
  rw [hmem]
  constructor
  · rintro (rfl | h | ⟨-, h⟩)
    · exact .inl (.inl rfl)
    · exact .inl (.inr h)
    · exact .inr h
  · rintro ((rfl | h) | h)
    · exact .inl rfl
    · exact .inr (.inl h)
    · by_cases hq : q = []
      · exact .inl hq
      · exact .inr (.inr ⟨hq, h⟩)

theorem kind_put_eq_dir_iff : (t.put p content).kind q = some .dir ↔ t.kind q = some .dir := by
  rw [kind_eq_dir_iff, kind_eq_dir_iff, put]

theorem getElem?_put :
    (t.put p content).files[q]? = if q = p then some content else t.files[q]? := by
  rw [put, Std.ExtTreeMap.getElem?_insert]
  by_cases h : q = p
  · rw [if_pos (Std.LawfulEqOrd.compare_eq_iff_eq.2 h.symm), if_pos h]
  · rw [if_neg fun he => h (Std.LawfulEqOrd.compare_eq_iff_eq.1 he).symm, if_neg h]

/-- What a write that succeeded did: its file is no directory, the directories above it are there
afterwards, and the file is. -/
theorem of_write (h : t.write p content = .ok t') :
    t.kind p ≠ some .dir ∧
      (∀ q, t'.kind q = some .dir ↔ t.kind q = some .dir ∨ q <+: p.dropLast) ∧
      ∀ q, t'.files[q]? = if q = p then some content else t.files[q]? := by
  unfold write at h
  split at h
  · cases h
  · rename_i hp
    refine ⟨hp, ?_⟩
    split at h
    · rename_i hparent
      cases h
      have hlen : p.dropLast = [] := by
        rw [Path.parent?] at hparent
        split at hparent
        · rename_i hle
          exact List.eq_nil_of_length_eq_zero (by rw [List.length_dropLast]; omega)
        · cases hparent
      refine ⟨fun q => ?_, fun q => getElem?_put⟩
      rw [kind_put_eq_dir_iff, hlen, List.prefix_nil]
      refine ⟨.inl, fun h => h.elim id fun hq => ?_⟩
      exact t.kind_eq_dir_iff.2 (.inl hq)
    · rename_i dir hparent
      split at h
      · cases h
      · cases h
        have hdir : p.dropLast = dir := by
          rw [Path.parent?] at hparent
          split at hparent
          · cases hparent
          · exact Option.some.inj hparent
        refine ⟨fun q => ?_, fun q => getElem?_put⟩
        rw [kind_put_eq_dir_iff, kind_addDirs_eq_dir_iff, hdir]

theorem of_createDirs (h : t.createDirs p = .ok t') :
    p ∉ t.files ∧ t' = t.addDirs p := by
  unfold createDirs at h
  split at h
  · cases h
  · rename_i hp
    cases h
    exact ⟨fun hmem => hp (Std.ExtTreeMap.contains_iff_mem.2 hmem), rfl⟩

/-! ### Trees that were made by writing -/

/-- The trees that operations make, from the empty tree on. -/
inductive Reachable : MemoryTree → Prop where
  | empty : Reachable ∅
  | write {t t' : MemoryTree} {s : String} {content : ByteArray} (ht : Reachable t)
      (h : t.writeAt s content = .ok t') : Reachable t'
  | createDirs {t t' : MemoryTree} {s : String} (ht : Reachable t)
      (h : t.createDirsAt s = .ok t') : Reachable t'

/-- Whatever lies in the tree has names that can stand in a path, and lies in a directory. -/
def IsClosed (t : MemoryTree) : Prop :=
  ∀ p : Path, p ≠ [] → t.kind p = some .dir ∨ p ∈ t.files →
    p.IsCanonical ∧ t.kind p.dropLast = some .dir

theorem isClosed_empty : (∅ : MemoryTree).IsClosed := by
  intro p hp h
  rcases h with h | h
  · rw [kind_eq_dir_iff] at h
    rcases h with h | h
    · exact absurd h hp
    · exact absurd h Std.ExtTreeSet.not_mem_empty
  · exact absurd h Std.ExtTreeMap.not_mem_empty

theorem isClosed_of_write (ht : t.IsClosed) (hp : p.IsCanonical) (h : t.write p content = .ok t') :
    t'.IsClosed := by
  obtain ⟨-, hdirs, hfiles⟩ := of_write h
  -- what was there keeps its directory, and the file and the directories above it have theirs
  have hold : ∀ q : Path, q ≠ [] → t.kind q = some .dir ∨ q ∈ t.files →
      q.IsCanonical ∧ t'.kind q.dropLast = some .dir := fun q hq hmem =>
    ⟨(ht q hq hmem).1, (hdirs _).2 (.inl (ht q hq hmem).2)⟩
  intro q hq hmem
  rcases hmem with hmem | hmem
  · rcases (hdirs q).1 hmem with hmem | hpre
    · exact hold q hq (.inl hmem)
    · have hpre' : q <+: p := hpre.trans (List.dropLast_prefix p)
      exact ⟨fun name hname => hp name (hpre'.subset hname),
        (hdirs _).2 (.inr ((List.dropLast_prefix q).trans hpre))⟩
  · obtain ⟨c, hc⟩ := mem_files_iff.1 hmem
    rw [hfiles] at hc
    split at hc
    · rename_i he
      subst he
      exact ⟨hp, (hdirs _).2 (.inr List.prefix_rfl)⟩
    · exact hold q hq (.inr (mem_files_iff.2 ⟨c, hc⟩))

theorem isClosed_of_createDirs (ht : t.IsClosed) (hp : p.IsCanonical)
    (h : t.createDirs p = .ok t') : t'.IsClosed := by
  obtain ⟨-, rfl⟩ := of_createDirs h
  intro q hq hmem
  have hold : t.kind q = some .dir ∨ q ∈ t.files →
      q.IsCanonical ∧ (t.addDirs p).kind q.dropLast = some .dir := fun hmem =>
    ⟨(ht q hq hmem).1, kind_addDirs_eq_dir_iff.2 (.inl (ht q hq hmem).2)⟩
  rcases hmem with hmem | hmem
  · rcases kind_addDirs_eq_dir_iff.1 hmem with hmem | hpre
    · exact hold (.inl hmem)
    · exact ⟨fun name hname => hp name (hpre.subset hname),
        kind_addDirs_eq_dir_iff.2 (.inr ((List.dropLast_prefix q).trans hpre))⟩
  · exact hold (.inr hmem)

theorem locate_eq_ok : View.locate s = .ok p ↔ Path.read? s = some p := by
  unfold View.locate
  cases Path.read? s <;> simp

theorem isClosed_of_reachable (h : t.Reachable) : t.IsClosed := by
  induction h with
  | empty => exact isClosed_empty
  | write ht h ih =>
    obtain ⟨p, hp, h⟩ := Results.bind_eq_ok.1 h
    exact isClosed_of_write ih (Path.isCanonical_of_read? (locate_eq_ok.1 hp)) h
  | createDirs ht h ih =>
    obtain ⟨p, hp, h⟩ := Results.bind_eq_ok.1 h
    exact isClosed_of_createDirs ih (Path.isCanonical_of_read? (locate_eq_ok.1 hp)) h

/-! ### Listings -/

theorem nodup_filterMap_nameIn? {places : List Path} (h : places.Nodup) (kind : Kind) :
    (places.filterMap fun q => (dir.nameIn? q).map fun name => (⟨name, kind⟩ : Entry)).Nodup := by
  refine List.Pairwise.filterMap _ ?_ h
  intro q q' hne e he e' he' hee'
  obtain ⟨name, hname, rfl⟩ := Option.map_eq_some_iff.1 he
  obtain ⟨name', hname', rfl⟩ := Option.map_eq_some_iff.1 he'
  cases hee'
  exact hne ((Path.nameIn?_eq_some.1 hname).trans (Path.nameIn?_eq_some.1 hname').symm)

theorem mem_filterMap_nameIn? {places : List Path} {kind kind' : Kind} :
    ⟨name, kind⟩ ∈ (places.filterMap fun q => (dir.nameIn? q).map fun name =>
      (⟨name, kind'⟩ : Entry)) ↔ kind = kind' ∧ dir ++ [name] ∈ places := by
  simp only [List.mem_filterMap, Option.map_eq_some_iff, Entry.mk.injEq]
  constructor
  · rintro ⟨q, hq, _, hname, rfl, rfl⟩
    exact ⟨rfl, Path.nameIn?_eq_some.1 hname ▸ hq⟩
  · rintro ⟨rfl, hmem⟩
    exact ⟨_, hmem, name, Path.nameIn?_eq_some.2 rfl, rfl, rfl⟩

/-- The files that lie directly in a directory, as lines of its listing. -/
def filesIn (t : MemoryTree) (dir : Path) : List Entry :=
  t.files.keys.filterMap fun q => (dir.nameIn? q).map (⟨·, .file⟩)

theorem mem_filesIn {e : Entry} :
    e ∈ t.filesIn dir ↔ e.kind = .file ∧ dir ++ [e.name] ∈ t.files := by
  rw [← Std.ExtTreeMap.mem_keys]
  exact mem_filterMap_nameIn?

theorem nodup_filesIn (t : MemoryTree) (dir : Path) : (t.filesIn dir).Nodup :=
  nodup_filterMap_nameIn? (t.files.distinct_keys.imp fun hne he =>
    hne (Std.LawfulEqOrd.compare_eq_iff_eq.2 he)) .file

theorem filter_entries_perm {f : Entry → Bool} (hf : ∀ e, f e = true → e.kind = .file) :
    ((t.entries dir).filter f).Perm ((t.filesIn dir).filter f) := by
  let named : Path → Option Entry := fun q => (dir.nameIn? q).map (⟨·, .dir⟩)
  have hdirs : (t.dirs.toList.filterMap named).filter f = [] := by
    rw [List.filter_eq_nil_iff]
    intro e he hfe
    obtain ⟨q, -, hq⟩ := List.mem_filterMap.1 he
    obtain ⟨name, -, rfl⟩ := Option.map_eq_some_iff.1 hq
    cases hf _ hfe
  refine ((Entry.sort_perm (t.dirs.toList.filterMap named ++ t.filesIn dir)).filter f).trans ?_
  rw [List.filter_append, hdirs, List.nil_append]

/-- The lines of a listing: the files and the directories that lie directly in the directory. -/
theorem mem_entries {kind : Kind} :
    ⟨name, kind⟩ ∈ t.entries dir ↔ match kind with
      | .file => dir ++ [name] ∈ t.files
      | .dir => t.kind (dir ++ [name]) = some .dir := by
  have hdirs : dir ++ [name] ∈ t.dirs.toList ↔ t.kind (dir ++ [name]) = some .dir := by
    rw [Std.ExtTreeSet.mem_toList, kind_eq_dir_iff, or_iff_right (by simp)]
  unfold entries
  rw [(Entry.sort_perm _).mem_iff, List.mem_append]
  dsimp only
  rw [mem_filterMap_nameIn?, mem_filterMap_nameIn?, hdirs, Std.ExtTreeMap.mem_keys]
  cases kind <;> simp

theorem nodup_entries (t : MemoryTree) (dir : Path) : (t.entries dir).Nodup := by
  refine (Entry.sort_perm _).nodup_iff.2 (List.nodup_append.2 ⟨?_, nodup_filesIn t dir, ?_⟩)
  · exact nodup_filterMap_nameIn? (t.dirs.distinct_toList.imp fun hne he =>
      hne (Std.LawfulEqOrd.compare_eq_iff_eq.2 he)) .dir
  · rintro ⟨name, kind⟩ hdir e hfile rfl
    have hkind := (mem_filterMap_nameIn?.1 hdir).1
    rw [(mem_filterMap_nameIn?.1 hfile).1] at hkind
    cases hkind

/-- The lines of a listing that a choice of files takes, and their order, are settled by the files
that lie directly in the directory. -/
theorem filter_entries_congr {f : Entry → Bool} (hf : ∀ e, f e = true → e.kind = .file)
    (h : ∀ name, dir ++ [name] ∈ t.files ↔ dir ++ [name] ∈ t'.files) :
    (t.entries dir).filter f = (t'.entries dir).filter f := by
  have hfiles : (t.filesIn dir).Perm (t'.filesIn dir) := by
    rw [List.perm_ext_iff_of_nodup (nodup_filesIn t dir) (nodup_filesIn t' dir)]
    intro e
    rw [mem_filesIn, mem_filesIn, h]
  have hsorted : ∀ t : MemoryTree, ((t.entries dir).filter f).Pairwise fun a b =>
      Entry.le a b = true := fun t => (Entry.pairwise_sort _).filter f
  refine Entry.eq_of_perm (hsorted t) (hsorted t') ?_
  exact (filter_entries_perm hf).trans ((hfiles.filter f).trans (filter_entries_perm hf).symm)

end MemoryTree

end Playground
