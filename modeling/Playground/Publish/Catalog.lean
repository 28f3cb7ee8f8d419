import Playground.Json.Read
import Playground.Message
import Playground.Tree.Disk

/-!
# Catalogues of published packages

The universe record lists the digests of every published package and is stored beside the
modules.  The lookup table holds the same digests in the form that clients use, in a file of its
own.  The file is written beside its place and then moved there, so that a reader never sees half
a table.
-/

namespace Playground

open Playground.Json

/-- The digests of a published package. -/
structure UniverseEntry where
  optimized : Digest
  full : Digest
  deriving DecidableEq, Repr

/-- The digests of all published packages. -/
abbrev UniverseRecord := Named UniverseEntry

/-- A row of the lookup table. -/
structure TableEntry where
  min : Digest
  max : Digest
  deriving DecidableEq, Repr

/-- The rows of the lookup table by import path. -/
abbrev LookupTable := Named TableEntry

/-- Why the lookup table could not be read or written. -/
inductive TableError where
  /-- The file cannot be read or written. -/
  | file (path cause : String)
  /-- The file holds no table. -/
  | content (cause : String)
  deriving DecidableEq, Repr

def TableError.message : TableError → String
  | file path cause => "failed to write lookup table " ++ path ++ ": " ++ cause
  | content cause => "failed to serialize: " ++ cause

namespace UniverseRecord

/-- The record of rendered packages. -/
def ofRendered (rendered : RenderedSet) : UniverseRecord :=
  rendered.map fun _ package => ⟨package.optimized.digest, package.full.digest⟩

def entryValue (e : UniverseEntry) : Value :=
  .object [("hash_optimized", Message.digestValue e.optimized),
    ("hash_full", Message.digestValue e.full)]

def text (record : UniverseRecord) : String := (Message.mapValue entryValue record).pretty

def readEntry? (v : Value) : Option UniverseEntry := do
  match ← Message.record? ["hash_optimized", "hash_full"] v with
  | [optimized, full] =>
    return ⟨← Message.required? Message.readDigest? optimized,
      ← Message.required? Message.readDigest? full⟩
  | _ => none

def ofValue? (v : Value) : Option UniverseRecord := Message.readMap? readEntry? v

end UniverseRecord

namespace LookupTable

/-- The table of a record. -/
def ofRecord (record : UniverseRecord) : LookupTable := record.map fun _ e => ⟨e.optimized, e.full⟩

def entryValue (e : TableEntry) : Value :=
  .object [("hash_min", Message.digestValue e.min), ("hash_max", Message.digestValue e.max)]

def text (table : LookupTable) : String := (Message.mapValue entryValue table).pretty

def readEntry? (v : Value) : Option TableEntry := do
  match ← Message.record? ["hash_min", "hash_max"] v with
  | [min, max] =>
    return ⟨← Message.required? Message.readDigest? min,
      ← Message.required? Message.readDigest? max⟩
  | _ => none

/-- The table of a text.  What stands in unknown fields need only be well formed. -/
def read? (text : String) : Option LookupTable :=
  Value.read? text.toList >>= Message.readMap? readEntry?

def load (d : Disk) (path : String) : Except TableError LookupTable :=
  match d.readFile path with
  | .error e => .error (.file path e.message)
  | .ok content =>
    match Bytes.Utf8.decode content with
    | .error _ => .error (.file path "stream did not contain valid UTF-8")
    | .ok text =>
      match read? text with
      | none => .error (.content "not a lookup table")
      | some table => .ok table

/-- Makes the directory above a path, if the path names one. -/
def makeParent (path : String) (d : Disk) : Disk × Except Disk.Fault Unit :=
  match DiskPath.parent? path with
  | none => (d, .ok ())
  | some parent => if parent = "" then (d, .ok ()) else d.createDirs parent

/-- Where a table is written before it is moved to its place. -/
def draftPath (path : String) : String := DiskPath.withExtension path "json.tmp"

/-- Writes a table into a file. -/
def save (table : LookupTable) (path : String) (d : Disk) : Except TableError Unit × Disk :=
  match makeParent path d with
  | (d, .error e) => (.error (.file path e.message), d)
  | (d, .ok ()) =>
    match d.writeFile (draftPath path) table.text.toByteArray with
    | .error e => (.error (.file path e.message), d)
    | .ok d =>
      match d.rename (draftPath path) path with
      | .error e => (.error (.file path e.message), d)
      | .ok d => (.ok (), d)

end LookupTable

end Playground
