import Playground.Digest
import Playground.Text.Visible
import Playground.Tree.Disk
import Playground.Tree.Path

/-!
# Buckets

A bucket stores objects under keys, written like paths.  Keys that are empty, absolute or lead out
of the bucket are refused.  A bucket in memory can be told to refuse more; one in a directory
writes each object beside its place and then moves it there, so that an object is never half
written.
-/

namespace Playground

/-- Why an object could not be stored. -/
inductive StorageError where
  | invalidKey (key : String)
  | io (path cause : String)
  | upload (key cause : String)
  deriving DecidableEq, Repr

def StorageError.message : StorageError → String
  | invalidKey key => "invalid object key: " ++ key
  | io path cause => "failed to write " ++ path ++ ": " ++ cause
  | upload key cause => "upload of " ++ key ++ " failed: " ++ cause

/-- An object of a bucket. -/
structure StoredObject where
  bytes : ByteArray
  contentType : String
  deriving DecidableEq

/-- What a bucket acts upon: something of its own, and the disk. -/
structure Depot (β : Type) where
  bucket : β
  disk : Disk

/-- A bucket. -/
structure Bucket (β : Type) where
  /-- Stores an object under a key. -/
  put : (key : String) → (object : StoredObject) → Depot β → Except StorageError Unit × Depot β

/-- Whether a piece of a key leads nowhere. -/
def isEmptyPiece (piece : List Char) : Bool :=
  piece = [] || piece = ['.'] || piece = ['.', '.']

/-- Whether a key is one that buckets accept. -/
def isKey (key : String) : Bool :=
  key ≠ "" && key.toList.head? != some '/' && !key.toList.contains '\\' &&
    !(Text.splitOn '/' key.toList).any isEmptyPiece

/-- Refuses keys that buckets do not accept. -/
def validateKey (key : String) : Except StorageError Unit :=
  if isKey key then .ok () else .error (.invalidKey key)

/-! ### In memory -/

/-- Whether `mark` occurs in a text. -/
def occursIn (mark cs : List Char) : Bool := (Text.after? mark cs).isSome

/-- A bucket in memory, which refuses keys in which `failOn` occurs. -/
def memoryBucket (failOn : Option String) : Bucket (Named StoredObject) where
  put key object depot :=
    match validateKey key with
    | .error e => (.error e, depot)
    | .ok () =>
      if failOn.any fun mark => occursIn mark.toList key.toList then
        (.error (.upload key "rejected"), depot)
      else (.ok (), { depot with bucket := depot.bucket.insert key object })

/-! ### In a directory -/

def objectPath (base key : String) : String :=
  (Text.splitOn '/' key.toList).foldl (fun path piece => DiskPath.join path (String.ofList piece))
    base

/-- Where an object is written before it is moved to its place.  `mark` is the mark of the
process. -/
def draftPath (mark path : String) : String :=
  DiskPath.withFileName path ("." ++ (DiskPath.fileName? path).getD "object" ++ "." ++ mark ++
    ".tmp")

/-- Makes the directory above a path. -/
def makeParent (path : String) (d : Disk) : Except StorageError Unit × Disk :=
  match DiskPath.parent? path with
  | none => (.ok (), d)
  | some parent =>
    match d.createDirs parent with
    | (d, .error e) => (.error (.io parent e.message), d)
    | (d, .ok ()) => (.ok (), d)

/-- Writes a file beside its place and moves it there. -/
def writeThrough (draft path : String) (bytes : ByteArray) (d : Disk) :
    Except StorageError Unit × Disk :=
  match d.writeFile draft bytes with
  | .error e => (.error (.io draft e.message), d)
  | .ok d =>
    match d.rename draft path with
    | .error e => (.error (.io path e.message), d)
    | .ok d => (.ok (), d)

/-- Stores an object below a directory.  One that is there already is left alone. -/
def putBelow (mark base key : String) (bytes : ByteArray) (d : Disk) :
    Except StorageError Unit × Disk :=
  let path := objectPath base key
  if (d.readFile path).toOption = some bytes then (.ok (), d)
  else
    match makeParent path d with
    | (.error e, d) => (.error e, d)
    | (.ok (), d) => writeThrough (draftPath mark path) path bytes d

def directoryBucket (mark base : String) : Bucket Unit where
  put key object depot :=
    match validateKey key with
    | .error e => (.error e, depot)
    | .ok () =>
      let (result, disk) := putBelow mark base key object.bytes depot.disk
      (result, { depot with disk })

end Playground
