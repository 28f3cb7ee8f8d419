import Playground.Proofs.Workspace

/-!
# Histories of a tree held in memory

A tree is written to by calls, and a call that fails leaves it as it was.  After any calls on the
empty tree, whatever lies in it lies in directories up to the root, and no file lies directly below
another one: that is all a call looks for.  A file that stands further up is not noticed, and the
call makes directories through it.  Such a file is a directory as well from then on, and nothing
else ever makes a place both (`MemoryTree.isBoth_calls_iff`).
-/

namespace Playground

theorem Path.eq_nil_of_prefix_dropLast {p : Path} (h : p <+: p.dropLast) : p = [] := by
  have hlength := h.length_le
  rw [List.length_dropLast] at hlength
  exact List.eq_nil_of_length_eq_zero (by omega)

/-! ### Calls -/

namespace Tree

/-- A call that writes to a tree. -/
inductive Call where
  | write (path : String) (content : ByteArray)
  | createDirs (path : String)

/-- The tree after a call, and how the call ended. -/
def call (tree : Tree) : Call → Tree × Except TreeError Unit
  | .write path content => tree.write content path
  | .createDirs path => tree.createDirs path

/-- The tree after some calls, those that fail included. -/
def calls (tree : Tree) (cs : List Call) : Tree := cs.foldl (fun tree c => (tree.call c).1) tree

theorem calls_concat (tree : Tree) (cs : List Call) (c : Call) :
    tree.calls (cs ++ [c]) = ((tree.calls cs).call c).1 := by
  rw [calls, List.foldl_concat]
  rfl

/-- The directory that a call makes, with those above it: the one that the file is to lie in, or
the directory itself. -/
def Call.dir? : Call → Option Path
  | write path _ => (Path.read? path).map List.dropLast
  | createDirs path => Path.read? path

end Tree

namespace MemoryTree

open Playground.Tree (Call)

variable {t t' : MemoryTree} {p q : Path} {content : ByteArray}

/-! ### Files in directories -/

/-- Whatever lies in a closed tree lies in directories up to the root. -/
theorem IsClosed.kind_of_isAbove (ht : t.IsClosed) (h : t.kind p = some .dir ∨ p ∈ t.files)
    (hq : q.isAbove p = true) : t.kind q = some .dir := by
  induction p using List.reverseRecOn with
  | nil =>
    obtain ⟨hpre, hne⟩ := Path.isAbove_iff.1 hq
    exact absurd (List.prefix_nil.1 hpre) hne
  | append_singleton dir name ih =>
    have hdir : t.kind dir = some .dir := by
      have hparent := (ht (dir ++ [name]) (by simp) h).2
      rwa [List.dropLast_concat] at hparent
    obtain ⟨hpre, hne⟩ := Path.isAbove_iff.1 hq
    rcases List.prefix_concat_iff.1 hpre with he | hpre
    · exact absurd he hne
    · by_cases he : q = dir
      · exact he ▸ hdir
      · exact ih (.inl hdir) (Path.isAbove_iff.2 ⟨hpre, he⟩)

theorem notMem_of_write (h : t.write p content = .ok t') (hroot : [] ∉ t.files) :
    p.dropLast ∉ t.files := by
  unfold write at h
  split at h
  · cases h
  · unfold Path.parent? at h
    split at h
    · rename_i hparent
      split at hparent
      · rename_i hlength
        have hdir : p.dropLast = [] :=
          List.eq_nil_of_length_eq_zero (by rw [List.length_dropLast]; omega)
        rwa [hdir]
      · cases hparent
    · rename_i dir hparent
      split at hparent
      · cases hparent
      · cases hparent
        split at h
        · cases h
        · rename_i hfile
          exact fun hmem => hfile (Std.ExtTreeMap.contains_iff_mem.2 hmem)

/-- No file lies directly below another one, and the root is no file. -/
def IsFlat (t : MemoryTree) : Prop := [] ∉ t.files ∧ ∀ p ∈ t.files, p.dropLast ∉ t.files

theorem isFlat_of_reachable (h : t.Reachable) : t.IsFlat := by
  induction h with
  | empty =>
    exact ⟨Std.ExtTreeMap.not_mem_empty, fun p hp => absurd hp Std.ExtTreeMap.not_mem_empty⟩
  | @write t t' s content ht h ih =>
    obtain ⟨p, -, h⟩ := Results.bind_eq_ok.1 h
    obtain ⟨hroot, hflat⟩ := ih
    obtain ⟨hnodir, -, hfiles⟩ := of_write h
    have hmem (q : Path) : q ∈ t'.files ↔ q = p ∨ q ∈ t.files := by
      rw [mem_files_iff, hfiles, mem_files_iff]
      split <;> simp_all
    have hne : p ≠ [] := by
      rintro rfl
      exact hnodir (t.kind_eq_dir_iff.2 (.inl rfl))
    simp only [IsFlat, hmem, not_or]
    refine ⟨⟨hne.symm, hroot⟩, ?_⟩
    rintro q (rfl | hq)
    · exact ⟨fun he => hne (Path.eq_nil_of_prefix_dropLast ⟨[], by rw [he, List.append_nil]⟩),
        notMem_of_write h hroot⟩
    · -- what a file lies in is a directory, where no file is written
      refine ⟨fun he => hnodir ?_, hflat q hq⟩
      have hdir := (isClosed_of_reachable ht q (fun he => hroot (he ▸ hq)) (.inr hq)).2
      rwa [he] at hdir
  | createDirs ht h ih =>
    obtain ⟨p, -, h⟩ := Results.bind_eq_ok.1 h
    obtain ⟨-, rfl⟩ := of_createDirs h
    exact ih

/-! ### One call -/

/-- A place that is a file and a directory. -/
def IsBoth (t : MemoryTree) (q : Path) : Prop := q ∈ t.files ∧ t.kind q = some .dir

/-- A call succeeds although there is a file above the directory that it makes. -/
def GoesThrough (t : MemoryTree) (c : Call) (q : Path) : Prop :=
  ((Tree.memory t).call c).2 = .ok () ∧ q ∈ t.files ∧
    ∃ dir, c.dir? = some dir ∧ q.isAbove dir = true

/-- What a call does to a tree held in memory: nothing, or what writing a file or making a directory
does. -/
theorem call_cases (t : MemoryTree) (c : Call) :
    (∃ e, (Tree.memory t).call c = (.memory t, .error e)) ∨
      ∃ p t', (Tree.memory t).call c = (.memory t', .ok ()) ∧
        ((∃ path content, c = .write path content ∧ Path.read? path = some p ∧
            t.write p content = .ok t') ∨
          ∃ path, c = .createDirs path ∧ Path.read? path = some p ∧ t.createDirs p = .ok t') := by
  cases c with
  | write path content =>
    rw [Tree.call, Tree.write]
    cases h : t.writeAt path content with
    | error e => exact .inl ⟨e, rfl⟩
    | ok t' =>
      obtain ⟨p, hp, h⟩ := Results.bind_eq_ok.1 h
      exact .inr ⟨p, t', rfl, .inl ⟨path, content, rfl, locate_eq_ok.1 hp, h⟩⟩
  | createDirs path =>
    rw [Tree.call, Tree.createDirs]
    cases h : t.createDirsAt path with
    | error e => exact .inl ⟨e, rfl⟩
    | ok t' =>
      obtain ⟨p, hp, h⟩ := Results.bind_eq_ok.1 h
      exact .inr ⟨p, t', rfl, .inr ⟨path, rfl, locate_eq_ok.1 hp, h⟩⟩

/-- A call makes a place both a file and a directory only by going through it. -/
theorem isBoth_call_iff (ht : t.IsFlat) {c : Call} (h : ((Tree.memory t).call c).1 = .memory t') :
    t'.IsBoth q ↔ t.IsBoth q ∨ t.GoesThrough c q := by
  rcases call_cases t c with ⟨e, hcall⟩ | ⟨p, t₁, hcall, hdone⟩
  · rw [hcall] at h
    cases h
    refine ⟨.inl, fun h => h.elim id fun hthrough => ?_⟩
    rw [GoesThrough, hcall] at hthrough
    cases hthrough.1
  · rw [hcall] at h
    cases h
    rw [GoesThrough, hcall]
    simp only [true_and]
    rcases hdone with ⟨path, content, rfl, hp, hwrite⟩ | ⟨path, rfl, hp, hmake⟩
    · obtain ⟨hnodir, hdirs, hfiles⟩ := of_write hwrite
      have hparent := notMem_of_write hwrite ht.1
      rw [IsBoth, IsBoth, hdirs, mem_files_iff, hfiles]
      simp only [Call.dir?, hp, Option.map_some, Option.some.injEq, exists_eq_left',
        Path.isAbove_iff]
      by_cases hq : q = p
      · -- no directory stands where the file is written, and none is made there
        subst hq
        have hnone : ¬ (t.kind q = some .dir ∨ q <+: q.dropLast) := fun h => hnodir <|
          h.elim id fun hpre => t.kind_eq_dir_iff.2 (.inl (Path.eq_nil_of_prefix_dropLast hpre))
        refine iff_of_false (fun h => hnone h.2) ?_
        rintro (⟨-, hdir⟩ | ⟨-, hpre, -⟩)
        · exact hnone (.inl hdir)
        · exact hnone (.inr hpre)
      · rw [if_neg hq, ← mem_files_iff, ← and_or_left]
        refine and_congr_right fun hmem => or_congr_right ⟨fun hpre => ⟨hpre, ?_⟩, And.left⟩
        rintro rfl
        exact hparent hmem
    · obtain ⟨hnot, rfl⟩ := of_createDirs hmake
      rw [IsBoth, IsBoth, kind_addDirs_eq_dir_iff]
      simp only [Call.dir?, hp, Option.some.injEq, exists_eq_left', Path.isAbove_iff]
      change q ∈ t.files ∧ _ ↔ _
      rw [← and_or_left]
      refine and_congr_right fun hmem => or_congr_right ⟨fun hpre => ⟨hpre, ?_⟩, And.left⟩
      rintro rfl
      exact hnot hmem

/-! ### Histories -/

theorem exists_calls_eq (cs : List Call) :
    ∃ t, (Tree.memory ∅).calls cs = .memory t ∧ t.Reachable := by
  induction cs using List.reverseRecOn with
  | nil => exact ⟨∅, rfl, .empty⟩
  | append_singleton cs c ih =>
    obtain ⟨t, hcalls, ht⟩ := ih
    rw [Tree.calls_concat, hcalls]
    rcases call_cases t c with ⟨e, hcall⟩ | ⟨p, t', hcall, hdone⟩
    · exact ⟨t, by rw [hcall], ht⟩
    · refine ⟨t', by rw [hcall], ?_⟩
      rcases hdone with ⟨path, content, rfl, hp, hwrite⟩ | ⟨path, rfl, hp, hmake⟩
      · exact .write ht (Results.bind_eq_ok.2 ⟨p, locate_eq_ok.2 hp, hwrite⟩)
      · exact .createDirs ht (Results.bind_eq_ok.2 ⟨p, locate_eq_ok.2 hp, hmake⟩)

/-- A place becomes both a file and a directory when a call goes through it. -/
theorem isBoth_iff_of_calls {cs : List Call} (h : (Tree.memory ∅).calls cs = .memory t) :
    t.IsBoth q ↔ ∃ before c after t₀, cs = before ++ c :: after ∧
      (Tree.memory ∅).calls before = .memory t₀ ∧ t₀.GoesThrough c q := by
  induction cs using List.reverseRecOn generalizing t with
  | nil =>
    cases h
    refine iff_of_false (fun h => Std.ExtTreeMap.not_mem_empty h.1) ?_
    rintro ⟨before, c, after, t₀, he, -⟩
    exact List.append_ne_nil_of_right_ne_nil before (List.cons_ne_nil c after) he.symm
  | append_singleton cs c ih =>
    obtain ⟨t₁, hcalls, ht₁⟩ := exists_calls_eq cs
    rw [Tree.calls_concat, hcalls] at h
    rw [isBoth_call_iff (isFlat_of_reachable ht₁) h, ih hcalls]
    constructor
    · rintro (⟨before, c', after, t₀, rfl, hbefore, hthrough⟩ | hthrough)
      · exact ⟨before, c', after ++ [c], t₀, by simp, hbefore, hthrough⟩
      · exact ⟨cs, c, [], t₁, rfl, hcalls, hthrough⟩
    · rintro ⟨before, c', after, t₀, he, hbefore, hthrough⟩
      -- the call that goes through the place is the last one or one of those before it
      rcases List.eq_nil_or_concat after with rfl | ⟨after, c'', rfl⟩
      · obtain ⟨rfl, hlast⟩ := List.append_inj' he rfl
        cases hlast
        rw [hcalls] at hbefore
        cases hbefore
        exact .inr hthrough
      · have he' : cs ++ [c] = (before ++ c' :: after) ++ [c''] := by simpa using he
        exact .inl ⟨before, c', after, t₀, List.append_inj_left' he' rfl, hbefore, hthrough⟩

/-- After any calls on the empty tree, whatever lies in it lies in directories up to the root, and
no file lies directly below another one.  A place is both a file and a directory exactly if one of
the calls went through it when it was a file. -/
theorem isBoth_calls_iff (cs : List Call) :
    ∃ t, (Tree.memory ∅).calls cs = .memory t ∧
      (∀ p q : Path, t.kind p = some .dir ∨ p ∈ t.files → q.isAbove p = true →
        t.kind q = some .dir) ∧
      (∀ p ∈ t.files, p.dropLast ∉ t.files) ∧
      ∀ q, t.IsBoth q ↔ ∃ before c after t₀, cs = before ++ c :: after ∧
        (Tree.memory ∅).calls before = .memory t₀ ∧ t₀.GoesThrough c q := by
  obtain ⟨t, hcalls, ht⟩ := exists_calls_eq cs
  exact ⟨t, hcalls, fun p q h hq => (isClosed_of_reachable ht).kind_of_isAbove h hq,
    (isFlat_of_reachable ht).2, fun q => isBoth_iff_of_calls hcalls⟩

/-- So a place can be both a file and a directory, and a file can stand above another one. -/
theorem not_calls_apart :
    ¬ ∀ (cs : List Call) (t : MemoryTree), (Tree.memory ∅).calls cs = .memory t →
      (∀ p, ¬ t.IsBoth p) ∧
        ∀ p q : Path, t.kind p = some .dir ∨ p ∈ t.files → q.isAbove p = true →
          t.kind q = some .dir ∧ q ∉ t.files := by
  intro h
  have hfile : (Tree.memory ∅).calls [.write "a" "file".toByteArray] =
    .memory ((∅ : MemoryTree).put ["a"] "file".toByteArray) := rfl
  have hthrough : ((∅ : MemoryTree).put ["a"] "file".toByteArray).GoesThrough
      (.write "a/b/c" "below".toByteArray) ["a"] :=
    ⟨rfl, by decide +kernel, ["a", "b"], by decide +kernel, by decide⟩
  obtain ⟨t, hcalls, -⟩ := exists_calls_eq
    ([.write "a" "file".toByteArray] ++ [.write "a/b/c" "below".toByteArray])
  exact (h _ t hcalls).1 ["a"] ((isBoth_iff_of_calls hcalls).2
    ⟨_, _, [], _, rfl, hfile, hthrough⟩)

end MemoryTree

end Playground
