import Mathlib.Logic.Relation
import Playground.Proofs.Tree.Changes

/-!
# Where written paths break off

A path that leads nowhere may break off at a place where nothing is (`Disk.BreaksOff`).  On a disk
that has grown a path leads where it led, unless something stands now where it broke off
(`Disk.stat_of_grows`).  What is made on the way to a path stands where the path, or one above it,
leads (`Disk.IsPassed`).
-/

namespace Playground.Disk

open Relation

variable {d e : Disk} {links : Nat} {place p gap : Path} {todo : List String} {path dir : String}
  {node : Node} {content : ByteArray}

/-! ### Gaps -/

/-- The place at which the walk from a directory to some content finds nothing. -/
inductive Misses (d : Disk) : Nat → Path → List String → Path → Prop where
  | here {links : Nat} {place : Path} (hnode : d.node? place = none) :
      Misses d links place [] place
  | idle {links : Nat} {place gap : Path} {name : String} {rest : List String}
      (hname : name = "" ∨ name = ".") (h : Misses d links place rest gap) :
      Misses d links place (name :: rest) gap
  | up {links : Nat} {place gap : Path} {rest : List String}
      (h : Misses d links place.dropLast rest gap) : Misses d links place (".." :: rest) gap
  | name {links : Nat} {place : Path} {name : String} {rest : List String}
      (hname : IsLookedUp .content name rest) (hnode : d.node? (place ++ [name]) = none) :
      Misses d links place (name :: rest) (place ++ [name])
  | dir {links : Nat} {place gap : Path} {name : String} {rest : List String}
      (hname : IsLookedUp .content name rest) (hnode : d.node? (place ++ [name]) = some .dir)
      (h : Misses d links (place ++ [name]) rest gap) : Misses d links place (name :: rest) gap
  | link {links : Nat} {place gap : Path} {name target : String} {rest : List String}
      (hname : IsLookedUp .content name rest)
      (hnode : d.node? (place ++ [name]) = some (.link target)) (htarget : target ≠ "")
      (h : Misses d links (if DiskPath.isAbsolute target then [] else place)
        (names target ++ rest) gap) : Misses d (links + 1) place (name :: rest) gap

theorem Misses.node?_eq_none (h : d.Misses links place todo gap) : d.node? gap = none := by
  induction h with
  | here hnode | name _ hnode => exact hnode
  | idle _ _ ih | up _ ih | dir _ _ _ ih | link _ _ _ _ ih => exact ih

/-- A written path breaks off at a place. -/
def BreaksOff (d : Disk) (path : String) (gap : Path) : Prop :=
  IsWritten path ∧ d.Misses linkLimit (d.start path) (names path) gap

theorem BreaksOff.node?_eq_none (h : d.BreaksOff path gap) : d.node? gap = none :=
  h.2.node?_eq_none

/-! ### Disks that have grown -/

/-- A disk that keeps the directories and links of another and has a file wherever that has one. -/
structure Grows (d e : Disk) : Prop extends KeepsWays d e where
  file : ∀ {place : Path} {content : ByteArray}, d.node? place = some (.file content) →
    ∃ content', e.node? place = some (.file content')

theorem AddsDirs.grows (h : AddsDirs d e) : Grows d e :=
  ⟨h.keepsWays, fun hnode => ⟨_, h.node?_eq hnode⟩⟩

theorem grows_of_writeFile (h : d.writeFile path content = .ok e) : Grows d e := by
  obtain ⟨p, spot, hlocate, hspot, rfl⟩ := of_writeFile h
  obtain ⟨hp, hfree⟩ := (leads_of_locate hlocate).of_isForFile hspot
  refine ⟨keepsWays_put hp hfree, fun {place old} hnode => ?_⟩
  rw [node?_put hp]
  split
  · exact ⟨content, rfl⟩
  · exact ⟨old, hnode⟩

theorem Grows.of_node?_eq_none (h : Grows d e) (hnode : e.node? p = none) : d.node? p = none := by
  cases hold : d.node? p with
  | none => rfl
  | some node =>
    cases node with
    | file =>
      obtain ⟨content, hfile⟩ := h.file hold
      rw [hfile] at hnode
      cases hnode
    | dir | link =>
      rw [h.node hold rfl] at hnode
      cases hnode

/-- A way of the grown disk is an old one, or it is new. -/
theorem Grows.of_isWay (h : Grows d e) (hnode : e.node? p = some node) (hway : node.isWay = true) :
    d.node? p = none ∨ d.node? p = some node := by
  cases hold : d.node? p with
  | none => exact .inl rfl
  | some old =>
    cases old with
    | file =>
      obtain ⟨content, hfile⟩ := h.file hold
      rw [hfile] at hnode
      cases hnode
      cases hway
    | dir | link => exact .inr (by rw [← h.node hold rfl, hnode])

theorem Leads.exists_of_grows (hgrows : Grows d e)
    (h : d.Leads .content links place todo (.taken p node)) :
    ∃ node', e.Leads .content links place todo (.taken p node') := by
  generalize hspot : Spot.taken p node = spot at h
  induction h with
  | here =>
    cases hspot
    exact ⟨_, .here⟩
  | idle hname _ ih => exact (ih hspot).imp fun _ h => .idle hname h
  | up _ ih => exact (ih hspot).imp fun _ h => .up h
  | free => cases hspot
  | entry _ _ hpurpose | look _ _ hpurpose => cases hpurpose
  | file hname hnode =>
    cases hspot
    obtain ⟨content', hfile⟩ := hgrows.file hnode
    exact ⟨_, .file hname hfile⟩
  | dir hname hnode hentry _ ih =>
    exact (ih hspot).imp fun _ h => .dir hname (hgrows.node hnode rfl) hentry h
  | link hname hnode hentry hlook htarget _ ih =>
    exact (ih hspot).imp fun _ h => .link hname (hgrows.node hnode rfl) hentry hlook htarget h

theorem exists_stat_of_grows (hgrows : Grows d e) (h : d.stat path = .ok (p, node)) :
    ∃ node', e.stat path = .ok (p, node') := by
  rw [stat_eq_ok_iff] at h
  obtain ⟨node', hleads⟩ := (leads_of_locate h).exists_of_grows hgrows
  exact ⟨node', stat_eq_ok_iff.2 (locate_of_leads h hgrows.workingDir hleads)⟩

theorem exists_stat_file_of_grows (hgrows : Grows d e) (h : d.stat path = .ok (p, .file content)) :
    ∃ content', e.stat path = .ok (p, .file content') := by
  obtain ⟨content', hfile⟩ := hgrows.file (node?_of_stat h).2
  exact ⟨content', stat_transfer h hgrows.toKeepsWays hfile⟩

theorem IsLookedUp.walk_content_eq {name : String} {rest : List String}
    (h : IsLookedUp .content name rest) :
    d.walk .content links place (name :: rest) =
      match d.node? (place ++ [name]) with
      | none => if rest.all (· = "") then .ok (.free (place ++ [name])) else .error .missing
      | some (.file content) =>
        if rest = [] then .ok (.taken (place ++ [name]) (.file content)) else .error .notADirectory
      | some .dir => d.walk .content links (place ++ [name]) rest
      | some (.link target) =>
        if target = "" then .error .missing
        else
          match links with
          | 0 => .error .tooManyLinks
          | links + 1 =>
            d.walk .content links (if DiskPath.isAbsolute target then [] else place)
              (names target ++ rest) := by
  rw [h.walk_eq]
  cases d.node? (place ++ [name]) with
  | none => rfl
  | some node =>
    cases node with
    | file | dir => simp
    | link => cases links <;> simp

/-- A walk goes on as before, but for the content of a file at its end, when nothing stands where
it found nothing. -/
theorem walk_of_grows (hgrows : Grows d e)
    (hgap : ∀ gap, d.Misses links place todo gap → e.node? gap = none) :
    e.walk .content links place todo = d.walk .content links place todo ∨
      ∃ p old new, d.walk .content links place todo = .ok (.taken p (.file old)) ∧
        e.walk .content links place todo = .ok (.taken p (.file new)) := by
  fun_induction walk d .content links place todo with
  | case1 links place =>
    rw [walk]
    cases hnode : d.node? place with
    | none => exact .inl (by rw [hgap place (.here hnode)])
    | some node =>
      cases node with
      | file old =>
        obtain ⟨new, hfile⟩ := hgrows.file hnode
        exact .inr ⟨place, old, new, rfl, by rw [hfile, Option.getD_some]⟩
      | dir | link => exact .inl (by rw [hgrows.node hnode rfl])
  | case2 links place name rest hname ih =>
    rw [walk, if_pos hname]
    exact ih fun gap h => hgap gap (.idle hname h)
  | case3 links place rest hname ih =>
    rw [walk, if_neg hname, if_pos rfl]
    exact ih fun gap h => hgap gap (.up h)
  | case4 _ _ _ _ _ _ hwritten => cases hwritten.1
  | case5 links place name rest hplain hdown hwritten hlong =>
    rw [walk, if_neg hplain, if_neg hdown, if_neg hwritten, if_pos hlong]
    exact .inl rfl
  | case6 links place name rest hplain hdown hwritten hfits here hnode hend =>
    have hname : IsLookedUp .content name rest := ⟨hplain, hdown, hfits, hwritten⟩
    rw [hname.walk_content_eq, hgap _ (.name hname hnode)]
    exact .inl (if_pos hend)
  | case7 links place name rest hplain hdown hwritten hfits here hnode hend =>
    have hname : IsLookedUp .content name rest := ⟨hplain, hdown, hfits, hwritten⟩
    rw [hname.walk_content_eq, hgap _ (.name hname hnode)]
    exact .inl (if_neg hend)
  | case8 _ _ _ _ _ _ _ _ _ _ _ hentry => cases hentry.1
  | case9 links place name hplain hdown hfits here content hwritten _ hnode =>
    have hname : IsLookedUp .content name [] := ⟨hplain, hdown, hfits, hwritten⟩
    obtain ⟨new, hfile⟩ := hgrows.file hnode
    refine .inr ⟨here, content, new, rfl, ?_⟩
    rw [hname.walk_content_eq, hfile]
    exact if_pos rfl
  | case10 links place name rest hplain hdown hwritten hfits here _ content hrest hnode =>
    have hname : IsLookedUp .content name rest := ⟨hplain, hdown, hfits, hwritten⟩
    obtain ⟨new, hfile⟩ := hgrows.file hnode
    rw [hname.walk_content_eq, hfile]
    exact .inl (if_neg hrest)
  | case11 links place name rest hplain hdown hwritten hfits here _ hnode ih =>
    have hname : IsLookedUp .content name rest := ⟨hplain, hdown, hfits, hwritten⟩
    rw [hname.walk_content_eq, hgrows.node hnode rfl]
    exact ih fun gap h => hgap gap (.dir hname hnode h)
  | case12 _ _ _ _ _ _ _ _ _ _ _ hlook => cases hlook.1
  | case13 links place name rest hplain hdown hwritten hfits here _ _ hnode =>
    have hname : IsLookedUp .content name rest := ⟨hplain, hdown, hfits, hwritten⟩
    rw [hname.walk_content_eq, hgrows.node hnode rfl]
    exact .inl rfl
  | case14 place name rest hplain hdown hwritten hfits here _ target _ htarget hnode =>
    have hname : IsLookedUp .content name rest := ⟨hplain, hdown, hfits, hwritten⟩
    rw [hname.walk_content_eq, hgrows.node hnode rfl]
    exact .inl (if_neg htarget)
  | case15 place name rest hplain hdown hwritten hfits here _ target _ htarget links hnode ih =>
    have hname : IsLookedUp .content name rest := ⟨hplain, hdown, hfits, hwritten⟩
    rw [hname.walk_content_eq, hgrows.node hnode rfl]
    simp only [if_neg htarget]
    exact ih fun gap h => hgap gap (.link hname hnode htarget h)

/-- Where a name was free the walk ended, and since nothing stands there now, a way that it meets
is an old one. -/
theorem Grows.node?_of_isWay {name : String} {rest : List String} (hgrows : Grows d e)
    (hname : IsLookedUp .content name rest)
    (hgap : ∀ gap, d.Misses links place (name :: rest) gap → e.node? gap = none)
    (hnode : e.node? (place ++ [name]) = some node) (hway : node.isWay = true) :
    d.node? (place ++ [name]) = some node := by
  refine (hgrows.of_isWay hnode hway).resolve_left fun hfree => ?_
  rw [hgap _ (.name hname hfree)] at hnode
  cases hnode

/-- On the grown disk a walk finds nothing where it found nothing before. -/
theorem misses_of_grows (hgrows : Grows d e)
    (hgap : ∀ gap, d.Misses links place todo gap → e.node? gap = none)
    (h : e.Misses links place todo gap) : d.Misses links place todo gap := by
  induction h with
  | here hnode => exact .here (hgrows.of_node?_eq_none hnode)
  | idle hname _ ih => exact .idle hname (ih fun gap h => hgap gap (.idle hname h))
  | up _ ih => exact .up (ih fun gap h => hgap gap (.up h))
  | name hname hnode => exact .name hname (hgrows.of_node?_eq_none hnode)
  | dir hname hnode _ ih =>
    have hold := hgrows.node?_of_isWay hname hgap hnode rfl
    exact .dir hname hold (ih fun gap h => hgap gap (.dir hname hold h))
  | link hname hnode htarget _ ih =>
    have hold := hgrows.node?_of_isWay hname hgap hnode rfl
    exact .link hname hold htarget (ih fun gap h => hgap gap (.link hname hold htarget h))

theorem locate_congr_of_not_isWritten {purpose : Purpose} (h : ¬ IsWritten path) :
    e.locate purpose path = d.locate purpose path := by
  unfold locate
  split
  · rfl
  · rename_i hprintable
    split
    · rfl
    · rename_i hnonempty
      split
      · rfl
      · rename_i hshort
        exact absurd ⟨hprintable, hnonempty, hshort⟩ h

/-- A path leads where it led, but for the content of a file, when nothing stands where it broke
off. -/
theorem stat_of_grows (hgrows : Grows d e)
    (hgap : ∀ gap, d.BreaksOff path gap → e.node? gap = none) :
    e.stat path = d.stat path ∨
      ∃ p old new, d.stat path = .ok (p, .file old) ∧ e.stat path = .ok (p, .file new) := by
  by_cases hwritten : IsWritten path
  · have hstart : e.start path = d.start path := by rw [start, start, hgrows.workingDir]
    unfold stat
    rw [hwritten.locate_eq, hwritten.locate_eq, hstart]
    rcases walk_of_grows hgrows fun gap h => hgap gap ⟨hwritten, h⟩ with
      hsame | ⟨p, old, new, h, h'⟩
    · exact .inl (by rw [hsame])
    · exact .inr ⟨p, old, new, by rw [h], by rw [h']⟩
  · exact .inl (by rw [stat, stat, locate_congr_of_not_isWritten hwritten])

theorem breaksOff_of_grows (hgrows : Grows d e)
    (hgap : ∀ gap, d.BreaksOff path gap → e.node? gap = none) (h : e.BreaksOff path gap) :
    d.BreaksOff path gap := by
  obtain ⟨hwritten, hmisses⟩ := h
  rw [start, hgrows.workingDir] at hmisses
  exact ⟨hwritten, misses_of_grows hgrows (fun gap h => hgap gap ⟨hwritten, h⟩) hmisses⟩

/-! ### What is made on the way to a path -/

/-- A written path, or a directory above it. -/
def IsAbove (path dir : String) : Prop :=
  ReflTransGen (fun path dir => DiskPath.parent? path = some dir) path dir

/-- A path, or one above it, leads to a place. -/
def IsPassed (d : Disk) (path : String) (p : Path) : Prop :=
  ∃ dir node, IsAbove path dir ∧ d.stat dir = .ok (p, node)

theorem IsPassed.of_grows (h : d.IsPassed path p) (hgrows : Grows d e) : e.IsPassed path p := by
  obtain ⟨dir, node, habove, hstat⟩ := h
  obtain ⟨node', hstat'⟩ := exists_stat_of_grows hgrows hstat
  exact ⟨dir, node', habove, hstat'⟩

theorem isAbove_of_mem_aboveUpTo {depth : Nat} (h : dir ∈ DiskPath.aboveUpTo depth path) :
    IsAbove path dir := by
  fun_induction DiskPath.aboveUpTo depth path with
  | case1 | case2 | case3 => cases h
  | case4 depth path above hne hparent ih =>
    rcases List.mem_cons.1 h with rfl | h
    · exact .single hparent
    · exact (ih h).head hparent

/-- A directory that is new stands where the path leads that it was made for. -/
theorem stat_of_makeDir (h : d.makeDir path = .ok e) (hfree : d.node? p = none)
    (hnew : e.node? p ≠ none) : e.stat path = .ok (p, .dir) := by
  obtain ⟨q, hq, -, rfl, hstat⟩ := put_of_makeDir h
  rw [node?_put hq] at hnew
  split at hnew
  · rename_i he
    exact he ▸ hstat
  · exact absurd hfree hnew

theorem exists_stat_of_mem_makeDirs {paths : List String} (hfree : d.node? p = none)
    (hnew : (d.makeDirs paths).1.node? p ≠ none) :
    ∃ path ∈ paths, ∃ node, (d.makeDirs paths).1.stat path = .ok (p, node) := by
  fun_induction makeDirs d paths with
  | case1 d => exact absurd hfree hnew
  | case2 d path above e hmade =>
    exact ⟨path, List.mem_cons_self, .dir, stat_of_makeDir hmade hfree hnew⟩
  | case3 d path above _ e _ habove ih =>
    rw [habove] at ih
    obtain ⟨dir, hdir, hstat⟩ := ih hfree hnew
    exact ⟨dir, List.mem_cons_of_mem _ hdir, hstat⟩
  | case4 d path above _ d' habove e hmade ih =>
    rw [habove] at ih
    by_cases hfree' : d'.node? p = none
    · exact ⟨path, List.mem_cons_self, .dir, stat_of_makeDir hmade hfree' hnew⟩
    · obtain ⟨dir, hdir, node, hstat⟩ := ih hfree hfree'
      obtain ⟨node', hstat'⟩ := exists_stat_of_grows (of_makeDir hmade).1.grows hstat
      exact ⟨dir, List.mem_cons_of_mem _ hdir, node', hstat'⟩
  | case5 d path above _ d' habove _ _ ih =>
    rw [habove] at ih
    obtain ⟨dir, hdir, hstat⟩ := ih hfree hnew
    exact ⟨dir, List.mem_cons_of_mem _ hdir, hstat⟩
  | case6 d => exact absurd hfree hnew

theorem isPassed_of_createDirs (hfree : d.node? p = none)
    (hnew : (d.createDirs path).1.node? p ≠ none) : (d.createDirs path).1.IsPassed path p := by
  unfold createDirs at hnew ⊢
  split at hnew
  · exact absurd hfree hnew
  · rename_i hne
    rw [if_neg hne]
    obtain ⟨dir, hdir, node, hstat⟩ := exists_stat_of_mem_makeDirs hfree hnew
    refine ⟨dir, node, ?_, hstat⟩
    rcases List.mem_cons.1 hdir with rfl | hdir
    · exact .refl
    · exact isAbove_of_mem_aboveUpTo hdir

/-- A file that is new stands where the path leads that it was written to. -/
theorem isPassed_of_writeFile (h : d.writeFile path content = .ok e) (hfree : d.node? p = none)
    (hnew : e.node? p ≠ none) : e.IsPassed path p := by
  obtain ⟨q, spot, hlocate, hspot, rfl⟩ := of_writeFile h
  have hleads := leads_of_locate hlocate
  have hq := (hleads.of_isForFile hspot).1
  rw [node?_put hq] at hnew
  split at hnew
  · rename_i he
    subst he
    exact ⟨path, _, .refl,
      stat_eq_ok_iff.2 (locate_of_leads hlocate rfl (hleads.content_put_file hspot))⟩
  · exact absurd hfree hnew

end Playground.Disk
