import Playground.Proofs.Message
import Playground.Proofs.Tree.Disk
import Playground.Publish.Catalog

/-!
# Catalogues

What is written of the universe record and of the lookup table is read back
(`UniverseRecord.ofBytes?_text`, `LookupTable.read?_text`), whatever the import paths and digests
are.
-/

namespace Playground

open Playground.Json

/-! ### The record -/

namespace UniverseRecord

theorem readEntry?_entryValue (e : UniverseEntry) : readEntry? (entryValue e) = some e := by
  simp [entryValue, readEntry?, Message.record?, Message.field?, Message.required?,
    Message.readDigest?, Message.readString?, Message.digestValue]

theorem isPlain_entryValue (e : UniverseEntry) : (entryValue e).IsPlain :=
  ⟨trivial, trivial, trivial⟩

/-- The record that a stored object holds. -/
def ofBytes? (bytes : ByteArray) : Option UniverseRecord := do
  ofValue? (← Value.read? (← (Bytes.Utf8.decode bytes).toOption).toList)

theorem ofBytes?_text (record : UniverseRecord) :
    ofBytes? record.text.toByteArray = some record := by
  rw [ofBytes?, Bytes.Utf8.decode_toByteArray]
  exact Message.read?_pretty_mapValue isPlain_entryValue readEntry?_entryValue record

end UniverseRecord

/-! ### The table -/

namespace LookupTable

open Disk

variable {d : Disk} {path : String}

theorem readEntry?_entryValue (e : TableEntry) : readEntry? (entryValue e) = some e := by
  simp [entryValue, readEntry?, Message.record?, Message.field?, Message.required?,
    Message.readDigest?, Message.readString?, Message.digestValue]

theorem isPlain_entryValue (e : TableEntry) : (entryValue e).IsPlain := ⟨trivial, trivial, trivial⟩

theorem read?_text (table : LookupTable) : read? table.text = some table :=
  Message.read?_pretty_mapValue isPlain_entryValue readEntry?_entryValue table

theorem load_of_readFile {table : LookupTable} (h : d.readFile path = .ok table.text.toByteArray) :
    load d path = .ok table := by
  rw [load, h]
  simp only [Bytes.Utf8.decode_toByteArray, read?_text]

/-- Where nothing stands in the way, a table is saved under a single name. -/
theorem exists_save_eq_ok (table : LookupTable) (hpath : IsName path)
    (hdraft : IsName (draftPath path)) (hne : path ≠ draftPath path)
    (hparent : DiskPath.parent? path = some "")
    (hfree : d.node? (d.workingDir ++ [path]) = none)
    (hdraftFree : d.node? (d.workingDir ++ [draftPath path]) = none) :
    ∃ d', table.save path d = (.ok (), d') := by
  have hwrite : d.writeFile (draftPath path) table.text.toByteArray =
      .ok (d.put (d.workingDir ++ [draftPath path]) (.file table.text.toByteArray)) := by
    rw [Disk.writeFile, hdraft.locate_free hdraftFree]
  generalize hd' : d.put (d.workingDir ++ [draftPath path]) (.file table.text.toByteArray) = d'
    at hwrite
  have hworking : d'.workingDir = d.workingDir := by rw [← hd']; rfl
  have hsource : d'.node? (d'.workingDir ++ [draftPath path]) =
      some (.file table.text.toByteArray) := by
    rw [hworking, ← hd', node?_put (by simp), if_pos rfl]
  have htarget : d'.node? (d'.workingDir ++ [path]) = none := by
    rw [hworking, ← hd', node?_put (by simp), if_neg (by simp [hne.symm]), hfree]
  have hrename : d'.rename (draftPath path) path = .ok (d'.move (d'.workingDir ++ [draftPath path])
      (d'.workingDir ++ [path]) (.file table.text.toByteArray)) := by
    simp [rename, hdraft.locate_file hsource, hpath.locate_free htarget, hdraft.open_ended,
      hpath.open_ended]
  have hmade : makeParent path d = (d, .ok ()) := by
    rw [makeParent, hparent]
    rfl
  simp only [save, hmade, hwrite, hrename]
  exact ⟨_, rfl⟩

end LookupTable

end Playground
