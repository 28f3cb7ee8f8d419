import Mathlib.Data.List.Dedup
import Playground.Proofs.Sources
import Playground.Proofs.Tree.Calls

/-!
# What a tree held in memory has after any calls

The calls that succeeded say all about a tree (`Tree.Records`): a file has the content that was
written to its place last, and a place is a directory if some call made it, or one below it.  So
reading, counting the files and listing can be told from the calls.  Whatever was stored is found by
following listings from the root on (`View.Walked`), and nothing else is.

Main statement: `MemoryTree.contents_calls`.
-/

namespace Playground

/-! ### What calls record -/

namespace Tree

/-- The place and the content of the file that a call writes. -/
def Call.file? : Call → Option (Path × ByteArray)
  | write path content => (Path.read? path).map (·, content)
  | createDirs _ => none

/-- The calls that succeed, in order. -/
def succeeded (tree : Tree) : List Call → List Call
  | [] => []
  | c :: cs => (if (tree.call c).2.isOk then [c] else []) ++ succeeded (tree.call c).1 cs

theorem succeeded_concat (tree : Tree) (cs : List Call) (c : Call) :
    tree.succeeded (cs ++ [c]) =
      tree.succeeded cs ++ if ((tree.calls cs).call c).2.isOk then [c] else [] := by
  induction cs generalizing tree with
  | nil =>
    rw [List.nil_append, succeeded, succeeded, succeeded, List.append_nil, List.nil_append]
    rfl
  | cons first cs ih =>
    rw [List.cons_append, succeeded, succeeded, ih, List.append_assoc]
    rfl

/-- The files that calls wrote, in order. -/
def filesOf (done : List Call) : List (Path × ByteArray) := done.filterMap Call.file?

/-- What calls wrote to a place last. -/
def lastWritten (done : List Call) (p : Path) : Option ByteArray :=
  (filesOf done).reverse.lookup p

/-- Calls put something at a place: a file that they wrote, or a directory that they made, with
those above it. -/
def Holds (done : List Call) (p : Path) : Kind → Prop
  | .file => p ∈ (filesOf done).map Prod.fst
  | .dir => p = [] ∨ ∃ dir ∈ done.filterMap Call.dir?, p <+: dir

variable {done : List Call} {c : Call} {p q dir : Path} {content : ByteArray}

theorem lastWritten_concat_file (h : c.file? = some (q, content)) :
    lastWritten (done ++ [c]) p = if p = q then some content else lastWritten done p := by
  have hfiles : filesOf (done ++ [c]) = filesOf done ++ [(q, content)] := by
    rw [filesOf, List.filterMap_append, List.filterMap_cons_some h]
    rfl
  rw [lastWritten, hfiles, List.reverse_append, List.reverse_singleton, List.singleton_append,
    List.lookup_cons]
  by_cases hp : p = q
  · rw [if_pos hp, beq_iff_eq.2 hp]
  · rw [if_neg hp, beq_eq_false_iff_ne.2 hp]
    rfl

theorem lastWritten_concat_of_none (h : c.file? = none) :
    lastWritten (done ++ [c]) p = lastWritten done p := by
  rw [lastWritten, filesOf, List.filterMap_append, List.filterMap_cons_none h, List.filterMap_nil,
    List.append_nil]
  rfl

theorem holds_dir_concat (h : c.dir? = some dir) :
    Holds (done ++ [c]) p .dir ↔ Holds done p .dir ∨ p <+: dir := by
  have hdirs : (done ++ [c]).filterMap Call.dir? = done.filterMap Call.dir? ++ [dir] := by
    rw [List.filterMap_append, List.filterMap_cons_some h]
    rfl
  simp only [Holds, hdirs, List.mem_append, List.mem_singleton, or_and_right, exists_or,
    exists_eq_left, or_assoc]

theorem holds_file_iff : Holds done p .file ↔ ∃ content, lastWritten done p = some content := by
  rw [Holds, lastWritten, ← Option.isSome_iff_exists, List.lookup_isSome_iff, List.mem_map]
  simp only [List.mem_reverse, beq_iff_eq, eq_comm (a := p)]

/-- What calls say of a tree held in memory. -/
structure Records (done : List Call) (t : MemoryTree) : Prop where
  files : ∀ p, t.files[p]? = lastWritten done p
  dirs : ∀ p, t.kind p = some .dir ↔ Holds done p .dir

theorem records_empty : Records [] ∅ where
  files _ := Std.ExtTreeMap.getElem?_empty
  dirs p := by
    have hnone : p ∉ (∅ : MemoryTree).dirs := Std.ExtTreeSet.not_mem_empty
    rw [MemoryTree.kind_eq_dir_iff, or_iff_left hnone]
    simp [Holds]

end Tree

namespace MemoryTree

open Playground.Tree (Call Records Holds succeeded lastWritten filesOf)

variable {t t' : MemoryTree} {done : List Call} {c : Call} {p dir : Path} {path name : String}
  {kind : Kind}

/-- A call that succeeds is recorded. -/
theorem records_call (h : Records done t) (hcall : (Tree.memory t).call c = (.memory t', .ok ())) :
    Records (done ++ [c]) t' := by
  rcases call_cases t c with ⟨e, hfail⟩ | ⟨p, t₁, hdone, hcases⟩
  · rw [hfail] at hcall
    cases hcall
  · rw [hdone] at hcall
    cases hcall
    rcases hcases with ⟨path, content, rfl, hp, hwrite⟩ | ⟨path, rfl, hp, hmake⟩
    · obtain ⟨-, hdirs, hfiles⟩ := of_write hwrite
      have hfile : (Call.write path content).file? = some (p, content) := by
        rw [Call.file?, hp, Option.map_some]
      have hdir : (Call.write path content).dir? = some p.dropLast := by
        rw [Call.dir?, hp, Option.map_some]
      refine ⟨fun q => ?_, fun q => ?_⟩
      · rw [hfiles, Tree.lastWritten_concat_file hfile, h.files]
      · rw [hdirs, Tree.holds_dir_concat hdir, h.dirs]
    · obtain ⟨-, rfl⟩ := of_createDirs hmake
      have hdir : (Call.createDirs path).dir? = some p := hp
      refine ⟨fun q => ?_, fun q => ?_⟩
      · rw [Tree.lastWritten_concat_of_none rfl]
        exact h.files q
      · rw [kind_addDirs_eq_dir_iff, Tree.holds_dir_concat hdir, h.dirs]

theorem records_calls (cs : List Call) :
    ∃ t, (Tree.memory ∅).calls cs = .memory t ∧ t.Reachable ∧
      Records ((Tree.memory ∅).succeeded cs) t := by
  induction cs using List.reverseRecOn with
  | nil => exact ⟨∅, rfl, .empty, Tree.records_empty⟩
  | append_singleton cs c ih =>
    obtain ⟨t, hcalls, -, hrecords⟩ := ih
    obtain ⟨t', hcalls', hreachable⟩ := exists_calls_eq (cs ++ [c])
    refine ⟨t', hcalls', hreachable, ?_⟩
    rw [Tree.calls_concat, hcalls] at hcalls'
    rw [Tree.succeeded_concat, hcalls]
    rcases call_cases t c with ⟨e, hcall⟩ | ⟨p, t₁, hcall, -⟩
    · rw [hcall] at hcalls' ⊢
      cases hcalls'
      rwa [if_neg nofun, List.append_nil]
    · rw [hcall] at hcalls' ⊢
      cases hcalls'
      exact records_call hrecords hcall

/-! ### Listings -/

theorem mem_files_iff_holds (h : Records done t) : p ∈ t.files ↔ Holds done p .file := by
  rw [mem_files_iff, h.files, Tree.holds_file_iff]

theorem mem_entries_iff_holds (h : Records done t) :
    ⟨name, kind⟩ ∈ t.entries dir ↔ Holds done (dir ++ [name]) kind := by
  rw [mem_entries]
  cases kind with
  | file => exact mem_files_iff_holds h
  | dir => exact h.dirs _

end MemoryTree

/-! ### Following listings -/

/-- What is found of a tree by following listings from the root on. -/
inductive View.Walked (v : View) : String → Kind → Prop where
  | root : v.Walked "" .dir
  | entry {dir : String} {found : List Entry} {e : Entry} (above : v.Walked dir .dir)
      (hlist : v.listAt dir = .ok found) (he : e ∈ found) : v.Walked (Path.join dir e.name) e.kind

namespace MemoryTree

open Playground.Tree (Call Records Holds succeeded lastWritten filesOf)

variable {t : MemoryTree} {done : List Call} {p dir : Path} {path name : String} {kind : Kind}
  {found : List Entry}

theorem there_of_holds (h : Records done t) (hp : Holds done p kind) :
    t.kind p = some .dir ∨ p ∈ t.files := by
  cases kind with
  | file => exact .inr ((mem_files_iff_holds h).2 hp)
  | dir => exact .inl ((h.dirs p).2 hp)

theorem isCanonical_of_holds (ht : t.IsClosed) (h : Records done t) (hp : Holds done p kind) :
    p.IsCanonical := by
  by_cases hroot : p = []
  · exact hroot ▸ nofun
  · exact (ht p hroot (there_of_holds h hp)).1

theorem of_listAt (h : Records done t) (hlist : t.view.listAt path = .ok found) :
    ∃ dir, Path.read? path = some dir ∧ Holds done dir .dir ∧ found = t.entries dir := by
  obtain ⟨dir, hdir, hlist⟩ := Results.bind_eq_ok.1 hlist
  obtain ⟨hkind, rfl⟩ := of_list hlist
  exact ⟨dir, locate_eq_ok.1 hdir, (h.dirs dir).1 hkind, rfl⟩

theorem listAt_text (ht : t.IsClosed) (h : Records done t) (hdir : Holds done dir .dir) :
    t.view.listAt dir.text = .ok (t.entries dir) := by
  rw [View.listAt_of_read? _ (Path.read?_text (isCanonical_of_holds ht h hdir))]
  exact list_of_dir ((h.dirs dir).2 hdir)

/-- Following listings leads to all that calls put somewhere, and to nothing else. -/
theorem walked_iff_holds (ht : t.Reachable) (h : Records done t) :
    t.view.Walked path kind ↔ ∃ p, path = p.text ∧ Holds done p kind := by
  have hclosed := isClosed_of_reachable ht
  constructor
  · intro hwalked
    induction hwalked with
    | root => exact ⟨[], rfl, .inl rfl⟩
    | @entry dir found e above hlist he ih =>
      obtain ⟨p, rfl, hp⟩ := ih
      rw [listAt_text hclosed h hp, Except.ok.injEq] at hlist
      have hholds : Holds done (p ++ [e.name]) e.kind :=
        (mem_entries_iff_holds h).1 (hlist ▸ he)
      have hname : Path.IsName e.name := isCanonical_of_holds hclosed h hholds _ (by simp)
      exact ⟨p ++ [e.name], Path.join_text (isCanonical_of_holds hclosed h hp) hname, hholds⟩
  · rintro ⟨p, rfl, hp⟩
    induction p using List.reverseRecOn generalizing kind with
    | nil =>
      cases kind with
      | dir => exact .root
      | file =>
        -- the root is no file
        exact absurd ((mem_files_iff_holds h).2 hp) (isFlat_of_reachable ht).1
    | append_singleton dir name ih =>
      have habove := (hclosed _ (by simp) (there_of_holds h hp)).2
      rw [List.dropLast_concat, h.dirs] at habove
      have hwalked := View.Walked.entry (ih habove) (listAt_text hclosed h habove)
        ((mem_entries_iff_holds h).2 hp)
      have hcanonical := isCanonical_of_holds hclosed h hp
      rwa [Path.join_text (fun n hn => hcanonical n (List.mem_append_left _ hn))
        (hcanonical name (by simp))] at hwalked

/-! ### After any calls -/

/-- There are as many files as places that were written to. -/
theorem fileCount_eq (h : Records done t) :
    t.fileCount = ((filesOf done).map Prod.fst).dedup.length := by
  have hnodup : t.files.keys.Nodup := t.files.distinct_keys.imp fun hne he =>
    hne (Std.LawfulEqOrd.compare_eq_iff_eq.2 he)
  rw [fileCount, ← Std.ExtTreeMap.length_keys]
  refine List.Perm.length_eq ((List.perm_ext_iff_of_nodup hnodup (List.nodup_dedup _)).2 ?_)
  intro p
  rw [Std.ExtTreeMap.mem_keys, List.mem_dedup]
  exact mem_files_iff_holds h

/-- Whatever calls were made on the empty tree, one that fails changes nothing.  Reading a path
gives what the calls that succeeded wrote last to the place that it names, and fails if they wrote
nothing there; there are as many files as places that they wrote to.  Following listings from the
root leads exactly to the files that they wrote and the directories that they made, with those
above.  Each listing is strictly sorted and has exactly the lines for what lies directly in its
directory. -/
theorem contents_calls (cs : List Call) :
    ∃ t, (Tree.memory ∅).calls cs = .memory t ∧
      (∀ c e, ((Tree.memory t).call c).2 = .error e → ((Tree.memory t).call c).1 = .memory t) ∧
      (∀ path content, t.view.readAt path = .ok content ↔ ∃ p, Path.read? path = some p ∧
        lastWritten ((Tree.memory ∅).succeeded cs) p = some content) ∧
      t.fileCount = ((filesOf ((Tree.memory ∅).succeeded cs)).map Prod.fst).dedup.length ∧
      (∀ path kind, t.view.Walked path kind ↔
        ∃ p : Path, path = p.text ∧ Holds ((Tree.memory ∅).succeeded cs) p kind) ∧
      ∀ path found, t.view.listAt path = .ok found →
        found.Pairwise (fun a b => Entry.le a b = true ∧ a ≠ b) ∧
        ∃ dir, Path.read? path = some dir ∧ ∀ name kind,
          ⟨name, kind⟩ ∈ found ↔ Holds ((Tree.memory ∅).succeeded cs) (dir ++ [name]) kind := by
  obtain ⟨t, hcalls, ht, h⟩ := records_calls cs
  refine ⟨t, hcalls, fun c e he => ?_, fun path content => ?_, fileCount_eq h,
    fun path kind => walked_iff_holds ht h, fun path found hlist => ?_⟩
  · rcases call_cases t c with ⟨e', hcall⟩ | ⟨p, t', hcall, -⟩
    · rw [hcall]
    · rw [hcall] at he
      cases he
  · rw [View.readAt, Results.bind_eq_ok]
    refine exists_congr fun p => and_congr locate_eq_ok ?_
    rw [← h.files]
    exact read_eq_ok_iff
  · obtain ⟨dir, hdir, -, rfl⟩ := of_listAt h hlist
    exact ⟨(Entry.pairwise_sort _).imp₂ (fun _ _ hle hne => ⟨hle, hne⟩) (nodup_entries t dir),
      dir, hdir, fun name kind => mem_entries_iff_holds h⟩

end MemoryTree

end Playground
