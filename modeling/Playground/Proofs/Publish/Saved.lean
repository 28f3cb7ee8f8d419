import Playground.Proofs.Publish.Catalog
import Playground.Proofs.Publish.TableFile

/-!
# Tables that are saved are loaded

The table of a record has its import paths, each with both digests.  It is read back from its text,
and from the file that it was saved in, unless a link stands there or where it is drafted: a link is
replaced by the table, and the path need not lead there any more without it.

Main statement: `LookupTable.load_save_ofRecord`.
-/

namespace Playground.LookupTable

open Disk

variable {d d' : Disk} {path : String} {table : LookupTable} {record : UniverseRecord}

/-! ### Tables of records -/

theorem getElem?_ofRecord (record : UniverseRecord) (p : String) :
    (ofRecord record)[p]? = record[p]?.map fun entry => ⟨entry.optimized, entry.full⟩ :=
  Std.ExtTreeMap.getElem?_map

theorem mem_ofRecord {p : String} : p ∈ ofRecord record ↔ p ∈ record := Std.ExtTreeMap.mem_map

/-! ### Files -/

theorem readFile_of_save (hlink : HasNoLink path d) (hdraft : HasNoLink (draftPath path) d)
    (hsave : table.save path d = (.ok (), d')) : d'.readFile path = .ok table.text.toByteArray := by
  rcases save_cases table path d with ⟨cause, h⟩ | ⟨d₁, hmake, e, hwrite, h⟩
  · cases hsave.symm.trans h
  · have hadds : AddsDirs d d₁ := by
      have hmade := addsDirs_makeParent path d
      rwa [hmake] at hmade
    obtain ⟨p, rfl, hp, -, hsource⟩ := locate_of_writeFile (hdraft d₁ hadds) hwrite
    -- drafting makes no link
    have hways : KeepsWays (d₁.put p (.file table.text.toByteArray)) d₁ := keepsWays_of_put hp
    have hlink' : ∀ q target, (d₁.put p (.file table.text.toByteArray)).locate .entry path ≠
        .ok (.taken q (.link target)) := by
      intro q target hlocate
      have hleads := leads_of_locate hlocate
      have hnode := hways.node (hleads.of_taken (by simp)).2 rfl
      exact hlink d₁ hadds q target
        (locate_of_leads hlocate rfl (hleads.transfer hways hnode (.inl rfl)))
    rcases h with ⟨fault, cause, -, h⟩ | ⟨d₂, hrename, h⟩
    · cases hsave.symm.trans h
    · cases hsave.symm.trans h
      exact readFile_eq_ok_iff.2 (stat_of_rename hsource hlink' hrename)

/-- What is read back of the table of a record has exactly the import paths of the record, each with
both digests: from its text, and from the file it was saved in, where no link stands in the way. -/
theorem load_save_ofRecord (record : UniverseRecord) :
    ∃ table : LookupTable, read? (ofRecord record).text = some table ∧
      (∀ p, p ∈ table ↔ p ∈ record) ∧
      (∀ (p : String) (entry : UniverseEntry), record[p]? = some entry →
        table[p]? = some ⟨entry.optimized, entry.full⟩) ∧
      ∀ (path : String) (d d' : Disk), HasNoLink path d → HasNoLink (draftPath path) d →
        (ofRecord record).save path d = (.ok (), d') → load d' path = .ok table := by
  refine ⟨ofRecord record, read?_text _, fun p => mem_ofRecord, fun p entry hentry => ?_,
    fun path d d' hlink hdraft hsave => load_of_readFile (readFile_of_save hlink hdraft hsave)⟩
  rw [getElem?_ofRecord, hentry, Option.map_some]

theorem hasNoLink_empty (hpath : IsName path) : HasNoLink path ⟨∅, []⟩ := by
  have hfree : (⟨∅, []⟩ : Disk).node? ([] ++ [path]) = none := Std.ExtTreeMap.getElem?_empty
  refine hasNoLink_of_isName hpath fun target hlink => ?_
  cases hfree.symm.trans hlink

/-- A record whose import path and digests hold marks of the notation. -/
def quotedRecord : UniverseRecord := (∅ : UniverseRecord).insert "a\"\n" ⟨⟨"\\"⟩, ⟨"\x7b\x7d"⟩⟩

theorem exists_load_quotedRecord : ∃ d table,
    (ofRecord quotedRecord).save "table.json" ⟨∅, []⟩ = (.ok (), d) ∧
      load d "table.json" = .ok table ∧ table["a\"\n"]? = some ⟨⟨"\\"⟩, ⟨"\x7b\x7d"⟩⟩ := by
  obtain ⟨d, hsave⟩ : ∃ d, (ofRecord quotedRecord).save "table.json" ⟨∅, []⟩ = (.ok (), d) :=
    exists_save_eq_ok _ (by decide) (by decide) (by decide) (by decide) (by decide) (by decide)
  obtain ⟨table, -, -, hentries, hload⟩ := load_save_ofRecord quotedRecord
  exact ⟨d, table, hsave, hload "table.json" _ d (hasNoLink_empty (by decide))
    (hasNoLink_empty (by decide)) hsave,
    hentries "a\"\n" ⟨⟨"\\"⟩, ⟨"\x7b\x7d"⟩⟩ Std.ExtTreeMap.getElem?_insert_self⟩

end Playground.LookupTable
