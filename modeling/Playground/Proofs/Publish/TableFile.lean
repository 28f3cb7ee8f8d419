import Playground.Proofs.Tree.Changes
import Playground.Publish.Catalog

/-!
# The file of the lookup table

Saving a table first makes the directories above its path, then writes the text beside its place and
at last moves it there.  When there was no table and the directories are there, what is found at
the path is always a text that was saved (`IsSettled`), and a table that cannot be saved leaves the
file as it was (`readFile_of_save_eq_error`).
-/

namespace Playground.LookupTable

open Disk

variable {d d' e start : Disk} {path : String} {p q : Path} {node : Node} {content text : ByteArray}
  {good : ByteArray → Prop} {table : LookupTable}

/-! ### The directory above -/

/-- The directory above a path is there, if the path names one. -/
def HasParent (path : String) (d : Disk) : Prop :=
  ∀ parent, DiskPath.parent? path = some parent → parent ≠ "" → ∃ p, d.stat parent = .ok (p, .dir)

theorem makeParent_cases (path : String) (d : Disk) :
    makeParent path d = (d, .ok ()) ∧
        (∀ parent, DiskPath.parent? path = some parent → parent = "") ∨
      ∃ parent, DiskPath.parent? path = some parent ∧ parent ≠ "" ∧
        makeParent path d = d.makeDirs (parent :: DiskPath.above parent) := by
  unfold makeParent
  cases hparent : DiskPath.parent? path with
  | none => exact .inl ⟨rfl, by simp⟩
  | some parent =>
    by_cases hempty : parent = ""
    · exact .inl ⟨if_pos hempty, by simp [hempty]⟩
    · exact .inr ⟨parent, rfl, hempty, by simp [hempty, createDirs]⟩

theorem addsDirs_makeParent (path : String) (d : Disk) : AddsDirs d (makeParent path d).1 := by
  rcases makeParent_cases path d with ⟨h, -⟩ | ⟨parent, -, -, h⟩
  · rw [h]
    exact .refl d
  · rw [h]
    exact addsDirs_makeDirs _ d

theorem hasParent_of_makeParent (h : makeParent path d = (d', .ok ())) : HasParent path d' := by
  intro parent hparent hne
  rcases makeParent_cases path d with ⟨-, hempty⟩ | ⟨parent', hparent', -, hmake⟩
  · exact absurd (hempty parent hparent) hne
  · rw [hparent] at hparent'
    cases hparent'
    rw [hmake] at h
    exact exists_stat_of_makeDirs h

theorem makeParent_eq_self (h : HasParent path d) (hover : Overwrites d e) :
    (makeParent path e).1 = e := by
  rcases makeParent_cases path e with ⟨hmake, -⟩ | ⟨parent, hparent, hne, hmake⟩
  · rw [hmake]
  · obtain ⟨p, hp⟩ := h parent hparent hne
    have hlocate := stat_eq_ok_iff.1 hp
    have hstart : e.start parent = d.start parent := by
      rw [Disk.start, Disk.start, hover.workingDir]
    rw [hmake]
    refine makeDirs_eq_self ?_
    rw [(isWritten_of_locate hlocate).locate_eq, hstart]
    exact (leads_of_locate hlocate).blocked hover

/-! ### No file, or one that was saved -/

/-- No link stands at a path, also once directories are made that are missing. -/
def HasNoLink (path : String) (d : Disk) : Prop :=
  ∀ e, AddsDirs d e → ∀ p target, e.locate .entry path ≠ .ok (.taken p (.link target))

theorem hasNoLink_of_isName (hpath : IsName path)
    (hlink : ∀ target, d.node? (d.workingDir ++ [path]) ≠ some (.link target)) :
    HasNoLink path d := by
  intro e hadds p target hlocate
  rw [← hadds.workingDir] at hlink
  cases hnode : e.node? (e.workingDir ++ [path]) with
  | none =>
    rw [hpath.locate_free hnode] at hlocate
    cases hlocate
  | some node =>
    cases node with
    | file =>
      rw [hpath.locate_file hnode] at hlocate
      cases hlocate
    | dir =>
      rw [hpath.locate_dir hnode] at hlocate
      cases hlocate
    | link target' =>
      rcases hadds.node (e.workingDir ++ [path]) with hsame | ⟨-, hdir⟩
      · exact hlink target' (hsame.symm.trans hnode)
      · rw [hnode] at hdir
        cases hdir

/-- No table is found at a path, and no link stands where one is drafted, also once directories are
made that are missing: a path such as `new/../table.json` leads to a file only when `new` is there,
and what is written through a link is not beside the table. -/
structure HasNoTable (path : String) (d : Disk) : Prop where
  table : ∀ e, AddsDirs d e → ∀ content, e.readFile path ≠ .ok content
  draft : ∀ e, AddsDirs d e → ∀ p target,
    e.locate .entry (draftPath path) ≠ .ok (.taken p (.link target))
  workingDir : IsDirectory d d.workingDir

/-- Where nothing has the name of the table and no link that of its draft, there is no table. -/
theorem hasNoTable_of_isName (hpath : IsName path) (hdraft : IsName (draftPath path))
    (hworking : IsDirectory d d.workingDir) (hfree : d.node? (d.workingDir ++ [path]) = none)
    (hlink : ∀ target, d.node? (d.workingDir ++ [draftPath path]) ≠ some (.link target)) :
    HasNoTable path d := by
  refine ⟨fun e hadds content hread => ?_, hasNoLink_of_isName hdraft hlink, hworking⟩
  obtain ⟨p, hstat⟩ := readFile_eq_ok_iff.1 hread
  have hlocate := stat_eq_ok_iff.1 hstat
  rw [← hadds.workingDir] at hfree
  rcases hadds.node (e.workingDir ++ [path]) with hnode | ⟨-, hnode⟩
  · rw [hpath.locate_free (hnode.trans hfree)] at hlocate
    cases hlocate
  · rw [hpath.locate_dir hnode] at hlocate
    cases hlocate

/-- The directories of a path are there, and a file that is found at it has some property. -/
structure IsSettled (good : ByteArray → Prop) (path : String) (d : Disk) : Prop where
  parent : (makeParent path d).1 = d
  table : ∀ content, d.readFile path = .ok content → good content
  draft : ∀ p target, d.locate .entry (draftPath path) ≠ .ok (.taken p (.link target))
  workingDir : IsDirectory d d.workingDir

/-- A text is drafted beside its place. -/
structure IsDraft (path : String) (text : ByteArray) (d e : Disk) (p : Path) : Prop where
  eq : e = d.put p (.file text)
  place : p ≠ []
  free : ∀ node, d.node? p = some node → node.isWay = false
  source : e.locate .entry (draftPath path) = .ok (.taken p (.file text))
  ends : DiskPath.endsInSeparator (draftPath path) = false

theorem exists_isDraft (hs : IsSettled good path d)
    (h : d.writeFile (draftPath path) text = .ok e) : ∃ p, IsDraft path text d e p := by
  obtain ⟨p, he, hp, hfree, hsource⟩ := locate_of_writeFile hs.draft h
  obtain ⟨_, spot, hlocate, hspot, -⟩ := of_writeFile h
  exact ⟨p, he, hp, hfree, hsource,
    endsInSeparator_of_locate hlocate hspot (fun _ => rfl) (by decide) hs.workingDir⟩

variable {p : Path}

theorem IsDraft.keepsWays (h : IsDraft path text d e p) : KeepsWays d e := by
  rw [h.eq]
  exact keepsWays_put h.place h.free

/-- What is found after drafting is the draft, or was found before. -/
theorem IsDraft.readFile (h : IsDraft path text d e p) (hread : e.readFile path = .ok content) :
    content = text ∨ d.readFile path = .ok content := by
  obtain ⟨q, hstat⟩ := readFile_eq_ok_iff.1 hread
  have hnode := (node?_of_stat hstat).2
  rw [h.eq, node?_put h.place] at hnode
  split at hnode
  · cases hnode
    exact .inl rfl
  · rw [h.eq] at hstat
    exact .inr (readFile_eq_ok_iff.2 ⟨q, stat_transfer hstat (keepsWays_of_put h.place) hnode⟩)

theorem IsSettled.drafted (hs : IsSettled good path d) (hparent : HasParent path d)
    (hgood : good text) (h : IsDraft path text d e p) : IsSettled good path e where
  parent := makeParent_eq_self hparent h.keepsWays.overwrites
  table content hread := by
    rcases h.readFile hread with rfl | hread
    · exact hgood
    · exact hs.table content hread
  draft q target hlink := by
    rw [h.source] at hlink
    cases hlink
  workingDir := h.keepsWays.overwrites.isDirectory hs.workingDir

theorem IsDraft.overwrites (h : IsDraft path text d e p) {spot : Spot}
    (hlocate : e.locate .entry path = .ok spot) (hspot : spot.IsReplaced q) :
    Overwrites d (e.move p q (.file text)) := by
  obtain ⟨hq, hdir⟩ := (leads_of_locate hlocate).of_isReplaced hspot
  have hkept : ∀ {place node}, d.node? place = some node → node.isWay →
      p ≠ place ∧ e.node? place = some node := by
    intro place node hnode hway
    refine ⟨?_, h.keepsWays.node hnode hway⟩
    rintro rfl
    rw [h.free _ hnode] at hway
    cases hway
  refine ⟨h.keepsWays.workingDir, ?_, ?_⟩
  · intro place hnode
    obtain ⟨hp, hnode⟩ := hkept hnode rfl
    have hne : q ≠ place := by
      rintro rfl
      exact hdir hnode
    rw [node?_move h.place hq, if_neg hne, if_neg hp, hnode]
  · intro place target hnode
    obtain ⟨hp, hnode⟩ := hkept hnode rfl
    rw [node?_move h.place hq, if_neg hp, hnode]
    split
    · exact .inr ⟨text, rfl⟩
    · exact .inl rfl

theorem IsSettled.moved (hs : IsSettled good path d) (hparent : HasParent path d)
    (hgood : good text) (h : IsDraft path text d e p)
    (hrename : e.rename (draftPath path) path = .ok d') : IsSettled good path d' := by
  obtain ⟨q, spot, hlocate, hspot, -, rfl⟩ := of_rename h.source hrename
  have hover := h.overwrites hlocate hspot
  have hq := ((leads_of_locate hlocate).of_isReplaced hspot).1
  have hways : KeepsWays (e.move p q (.file text)) e := keepsWays_of_move h.place hq
  have hdrafted := hs.drafted hparent hgood h
  refine ⟨makeParent_eq_self hparent hover, ?_, ?_, hover.isDirectory hs.workingDir⟩
  -- what is found is the text that was moved, or was found before under the same path
  · intro content hread
    obtain ⟨place, hstat⟩ := readFile_eq_ok_iff.1 hread
    have hnode := (node?_of_stat hstat).2
    rw [node?_move h.place hq] at hnode
    split at hnode
    · cases hnode
      exact hgood
    · split at hnode
      · cases hnode
      · exact hdrafted.table content
          (readFile_eq_ok_iff.2 ⟨place, stat_transfer hstat hways hnode⟩)
  · intro place target hlink
    have hleads := leads_of_locate hlink
    have hnode := hways.node (hleads.of_taken (by simp)).2 rfl
    exact hdrafted.draft place target
      (locate_of_leads hlink rfl (hleads.transfer hways hnode (.inl rfl)))

/-! ### Saving -/

/-- What saving does: it makes the directories, writes the draft and moves it, up to the first that
fails. -/
theorem save_cases (table : LookupTable) (path : String) (d : Disk) :
    (∃ cause, table.save path d = (.error cause, (makeParent path d).1)) ∨
      ∃ d₁, makeParent path d = (d₁, .ok ()) ∧ ∃ e,
        d₁.writeFile (draftPath path) table.text.toByteArray = .ok e ∧
          ((∃ fault cause, e.rename (draftPath path) path = .error fault ∧
              table.save path d = (.error cause, e)) ∨
            ∃ d', e.rename (draftPath path) path = .ok d' ∧ table.save path d = (.ok (), d')) := by
  unfold save
  split
  · rename_i d₁ fault hmake
    exact .inl ⟨_, by rw [hmake]⟩
  · rename_i d₁ hmake
    split
    · exact .inl ⟨_, by rw [hmake]⟩
    · rename_i e hwrite
      refine .inr ⟨d₁, hmake, e, hwrite, ?_⟩
      split
      · rename_i fault hrename
        exact .inl ⟨fault, _, hrename, rfl⟩
      · rename_i d' hrename
        exact .inr ⟨d', hrename, rfl⟩

/-- Saving has not begun, but for some directories, or all is settled. -/
def IsKept (good : ByteArray → Prop) (path : String) (start d : Disk) : Prop :=
  AddsDirs start d ∨ IsSettled good path d

theorem IsKept.of_readFile (h : IsKept good path start d) (hstart : HasNoTable path start)
    (hread : d.readFile path = .ok content) : good content := by
  rcases h with h | h
  · exact absurd hread (hstart.table d h content)
  · exact h.table content hread

theorem IsKept.imp {good' : ByteArray → Prop} (h : IsKept good path start d)
    (himp : ∀ content, good content → good' content) : IsKept good' path start d := by
  rcases h with h | ⟨hparent, htable, hdraft, hworking⟩
  · exact .inl h
  · exact .inr ⟨hparent, fun content hread => himp content (htable content hread), hdraft, hworking⟩

/-- Making the directories neither makes a file appear at the path nor changes one. -/
theorem IsKept.readFile_addsDirs (h : IsKept good path start d) (hstart : HasNoTable path start)
    (hadds : AddsDirs d e) (hmade : AddsDirs e (makeParent path d).1) :
    e.readFile path = .ok content ↔ d.readFile path = .ok content := by
  rcases h with h | h
  · exact iff_of_false (hstart.table e (h.trans hadds) content) (hstart.table d h content)
  · rw [h.parent] at hmade
    have hsame : ∀ {d e : Disk}, AddsDirs d e → d.readFile path = .ok content →
        e.readFile path = .ok content := by
      intro d e hadds hread
      obtain ⟨p, hstat⟩ := readFile_eq_ok_iff.1 hread
      have hnode := hadds.node?_eq (node?_of_stat hstat).2
      exact readFile_eq_ok_iff.2 ⟨p, stat_transfer hstat hadds.keepsWays hnode⟩
    exact ⟨hsame hmade, hsame hadds⟩

theorem IsKept.settled (h : IsKept good path start d) (hstart : HasNoTable path start)
    (hmake : makeParent path d = (d', .ok ())) : IsSettled good path d' ∧ HasParent path d' := by
  have hparent := hasParent_of_makeParent hmake
  refine ⟨?_, hparent⟩
  rcases h with h | h
  · have hadds := addsDirs_makeParent path d
    rw [hmake] at hadds
    have hadds := h.trans hadds
    exact {
      parent := makeParent_eq_self hparent (AddsDirs.refl d').keepsWays.overwrites
      table := fun content hread => absurd hread (hstart.table d' hadds content)
      draft := hstart.draft d' hadds
      workingDir := hadds.keepsWays.overwrites.isDirectory hstart.workingDir }
  · have hself : d' = d := by simpa [hmake] using h.parent
    rw [hself]
    exact h

theorem IsDraft.readFile_ne (h : IsDraft path text d e p) (hs : IsSettled good path d)
    {fault : Fault} (hrename : e.rename (draftPath path) path = .error fault) :
    e.readFile path ≠ .ok content ∧ d.readFile path ≠ .ok content := by
  have hworking : IsDirectory e e.workingDir :=
    h.keepsWays.overwrites.isDirectory hs.workingDir
  have hfound : ∀ q content, e.stat path ≠ .ok (q, .file content) := by
    intro q content hstat
    have hends := endsInSeparator_of_locate (stat_eq_ok_iff.1 hstat) rfl (by simp) (by decide)
      hworking
    exact stat_ne_of_rename_eq_error h.source h.ends hends hrename hstat
  constructor
  · intro hread
    obtain ⟨q, hstat⟩ := readFile_eq_ok_iff.1 hread
    exact hfound q content hstat
  · intro hread
    obtain ⟨q, hstat⟩ := readFile_eq_ok_iff.1 hread
    -- the draft may have been written over the very file, which is still found then
    have hnode : ∃ content, e.node? q = some (.file content) := by
      rw [h.eq, node?_put h.place]
      split
      · exact ⟨text, rfl⟩
      · exact ⟨content, (node?_of_stat hstat).2⟩
    obtain ⟨content', hnode⟩ := hnode
    exact hfound q content' (stat_transfer hstat h.keepsWays hnode)

/-- Whether it succeeds or not, saving a text with a property keeps the property. -/
theorem IsKept.save (h : IsKept good path start d) (hstart : HasNoTable path start)
    (hgood : good table.text.toByteArray) : IsKept good path start (table.save path d).2 := by
  rcases save_cases table path d with ⟨cause, hsave⟩ | ⟨d₁, hmake, e, hwrite, hsave⟩
  · rw [hsave]
    rcases h with h | h
    · exact .inl (h.trans (addsDirs_makeParent path d))
    · refine .inr ?_
      rw [h.parent]
      exact h
  · obtain ⟨hs, hparent⟩ := h.settled hstart hmake
    obtain ⟨p, hdraft⟩ := exists_isDraft hs hwrite
    rcases hsave with ⟨fault, cause, -, hsave⟩ | ⟨d', hrename, hsave⟩
    · rw [hsave]
      exact .inr (hs.drafted hparent hgood hdraft)
    · rw [hsave]
      exact .inr (hs.moved hparent hgood hdraft hrename)

/-- A table that is not saved leaves the file as it was. -/
theorem readFile_of_save_eq_error {cause : TableError} (h : IsKept good path start d)
    (hstart : HasNoTable path start) (hsave : table.save path d = (.error cause, d')) :
    d'.readFile path = .ok content ↔ d.readFile path = .ok content := by
  have hmade : (makeParent path d).1.readFile path = .ok content ↔ d.readFile path = .ok content :=
    h.readFile_addsDirs hstart (addsDirs_makeParent path d) (.refl _)
  rcases save_cases table path d with ⟨cause', hcase⟩ | ⟨d₁, hmake, e, hwrite, hcase⟩
  · rw [hsave] at hcase
    cases hcase
    exact hmade
  · obtain ⟨hs, -⟩ := h.settled hstart hmake
    obtain ⟨p, hdraft⟩ := exists_isDraft hs hwrite
    rw [hmake] at hmade
    rcases hcase with ⟨fault, cause', hrename, hcase⟩ | ⟨d'', -, hcase⟩
    · rw [hsave] at hcase
      cases hcase
      have ⟨hafter, hbefore⟩ : d'.readFile path ≠ .ok content ∧ d₁.readFile path ≠ .ok content :=
        hdraft.readFile_ne hs hrename
      exact iff_of_false hafter fun hread => hbefore (hmade.2 hread)
    · rw [hsave] at hcase
      cases hcase

/-! ### While a table is saved -/

/-- The disks on the way of saving a table: directories are made, then the draft is written. -/
inductive Saving (table : LookupTable) (path : String) (d : Disk) : Disk → Prop where
  | making {e : Disk} (hadds : AddsDirs d e) (hmade : AddsDirs e (makeParent path d).1) :
      Saving table path d e
  | drafted {d₁ e : Disk} (hmake : makeParent path d = (d₁, .ok ()))
      (hwrite : d₁.writeFile (draftPath path) table.text.toByteArray = .ok e) :
      Saving table path d e

theorem IsKept.of_saving (h : IsKept good path start d) (hstart : HasNoTable path start)
    (hgood : good table.text.toByteArray) (hsaving : Saving table path d e)
    (hread : e.readFile path = .ok content) : good content := by
  cases hsaving with
  | making hadds hmade =>
    exact h.of_readFile hstart ((h.readFile_addsDirs hstart hadds hmade).1 hread)
  | drafted hmake hwrite =>
    obtain ⟨hs, hparent⟩ := h.settled hstart hmake
    obtain ⟨p, hdraft⟩ := exists_isDraft hs hwrite
    exact (hs.drafted hparent hgood hdraft).table content hread

end Playground.LookupTable
