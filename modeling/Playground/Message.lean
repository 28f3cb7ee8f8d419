import Playground.Bytes.Base64
import Playground.Delta
import Playground.Json.Read

/-!
# Session messages

Each message is one JSON object with its kind under `type`, written on a line of its own.  A
client sends one `update`; it is answered with notices, modules and an index, or with an error.

Reading also accepts an array of the fields in their order.  Fields that are not known are passed
over, a known one may not be repeated, and those with a default may be left out.
-/

namespace Playground

open Playground.Json

/-- The import path of the package that a client runs. -/
def entryPackage : String := "main"

/-- The file that the entry package has to have. -/
def entryFile : String := "main.go"

/-- What is wrong with an exchange of messages. -/
inductive ProtocolError where
  | timeout
  | closed
  | malformed (cause : String)
  | unexpectedMessage (kind : String)
  | missingEntryPackage
  | missingEntryFile
  | io (cause : String)
  deriving DecidableEq, Repr

def ProtocolError.message : ProtocolError → String
  | timeout => "timed out waiting for instruction from client"
  | closed => "connection closed before instruction was received"
  | malformed cause => "invalid message: " ++ cause
  | unexpectedMessage kind => "invalid init message: expected update, got " ++ kind
  | missingEntryPackage => "can't find main package in source"
  | missingEntryFile => "can't find main.go in source"
  | io cause => "io error: " ++ cause

/-- Source texts by file, by import path. -/
abbrev SourceMap := Named (Named String)

/-- What a client asks for. -/
structure Update where
  source : SourceMap
  /-- The modules that the client holds. -/
  cache : Manifest
  variant : Variant
  deriving DecidableEq

/-- The source of the entry file. -/
def Update.entrySource (u : Update) : Except ProtocolError String :=
  match u.source[entryPackage]? with
  | none => .error .missingEntryPackage
  | some files =>
    match files[entryFile]? with
    | none => .error .missingEntryFile
    | some source => .ok source

/-- A notice about a phase of the work. -/
structure Notice where
  starting : Bool
  done : Bool
  text : Option String
  deriving DecidableEq, Repr

namespace Notice

def begin : Notice := ⟨true, false, none⟩

def finished : Notice := ⟨false, true, none⟩

def say (text : String) : Notice := ⟨false, false, some text⟩

end Notice

/-- A message in either direction. -/
inductive Message where
  | update (u : Update)
  | downloading (n : Notice)
  | updating (n : Notice)
  | index (packages : Named IndexEntry)
  /-- A module in a gzip frame, in base64. -/
  | archive (path : String) (digest : Digest) (contents : String)
  | error (text : String) (path : Option String) (position : Option Source.Position)
  deriving DecidableEq

namespace Message

/-- The message that sends a module. -/
def ofArtifact (a : QueuedArtifact) : Message :=
  .archive a.importPath a.digest (Bytes.Base64.encode a.contents)

/-- An error about nothing in particular. -/
def ofError (text : String) : Message := .error text none none

def kind : Message → String
  | update _ => "update"
  | downloading _ => "downloading"
  | updating _ => "updating"
  | index _ => "index"
  | archive _ _ _ => "archive"
  | error _ _ _ => "error"

/-! ### Writing -/

def mapValue (f : α → Value) (m : Named α) : Value :=
  .object (m.toList.map fun (name, a) => (name, f a))

def digestValue (d : Digest) : Value := .string d.text

def positionFields (p : Source.Position) : List (String × Value) :=
  [("file", .string p.file), ("line", .nat p.line.toNat), ("column", .nat p.column.toNat)]

def indexFields (e : IndexEntry) : List (String × Value) :=
  [("hash_optimized", digestValue e.optimized), ("hash_full", digestValue e.full),
    ("unchanged", .bool e.unchanged)]

/-- A field that is written only when it is set. -/
def flagField (name : String) (b : Bool) : List (String × Value) :=
  if b then [(name, .bool true)] else []

/-- A field that is written only when there is something. -/
def optionField (name : String) (v : Option Value) : List (String × Value) :=
  v.toList.map (name, ·)

def noticeFields (n : Notice) : List (String × Value) :=
  flagField "starting" n.starting ++ flagField "done" n.done ++
    optionField "message" (n.text.map .string)

def fields : Message → List (String × Value)
  | update u =>
    [("source", mapValue (mapValue .string) u.source), ("cache", mapValue digestValue u.cache),
      ("variant", .string u.variant.name)]
  | downloading n | updating n => noticeFields n
  | index packages => [("packages", mapValue (fun e => .object (indexFields e)) packages)]
  | archive path digest contents =>
    [("path", .string path), ("hash", digestValue digest), ("contents", .string contents)]
  | error text path position =>
    ("message", .string text) :: optionField "path" (path.map .string) ++
      optionField "position" (position.map fun p => .object (positionFields p))

def value (m : Message) : Value := .object (("type", .string m.kind) :: m.fields)

/-- The line that a message is written on, without its end. -/
def text (m : Message) : String := m.value.compact

/-! ### Reading -/

/-- A field by its name; fails when it is repeated. -/
def field? (members : List (String × Value)) (name : String) : Option (Option Value) :=
  match members.filter fun m => m.1 = name with
  | [] => some none
  | [(_, v)] => some (some v)
  | _ => none

/-- The fields of a record with the given names, from an object or from an array in their order. -/
def record? (names : List String) : Value → Option (List (Option Value))
  | .object members => names.mapM (field? members)
  | .array items =>
    if items.length ≤ names.length then
      some (items.map some ++ List.replicate (names.length - items.length) none)
    else none
  | _ => none

/-- A field that has to be there. -/
def required? (read : Value → Option α) (v : Option Value) : Option α := v.bind read

/-- A field that has a default. -/
def default? (a : α) (read : Value → Option α) : Option Value → Option α
  | none => some a
  | some v => read v

/-- Something that may be null. -/
def nullable? (read : Value → Option α) : Value → Option (Option α)
  | .null => some none
  | v => (read v).map some

def readString? : Value → Option String
  | .string s => some s
  | _ => none

def readBool? : Value → Option Bool
  | .bool b => some b
  | _ => none

/-- A number below `2^32`. -/
def readWord? : Value → Option UInt32
  | .number n => if 0 ≤ n ∧ n.toNat < UInt32.size then some (.ofNat n.toNat) else none
  | _ => none

/-- A map; the last of several members of one name counts. -/
def readMap? (read : Value → Option α) : Value → Option (Named α)
  | .object members =>
    members.foldlM (fun m (name, v) => (read v).map fun a => m.insert name a) ∅
  | _ => none

def readDigest? (v : Value) : Option Digest := (readString? v).map Digest.mk

def variantOfName? (name : String) : Option Variant :=
  if name = "optimized" then some .optimized else if name = "full" then some .full else none

/-- A variant: its name, or an object with its name and nothing else. -/
def readVariant? : Value → Option Variant
  | .string name => variantOfName? name
  | .object [(name, .null)] | .object [(name, .object [])] => variantOfName? name
  | _ => none

def readPosition? (v : Value) : Option Source.Position := do
  match ← record? ["file", "line", "column"] v with
  | [file, line, column] =>
    return ⟨← required? readString? file, ← required? readWord? line,
      ← required? readWord? column⟩
  | _ => none

def readIndexEntry? (v : Value) : Option IndexEntry := do
  match ← record? ["hash_optimized", "hash_full", "unchanged"] v with
  | [optimized, full, unchanged] =>
    return ⟨← required? readDigest? optimized, ← required? readDigest? full,
      ← required? readBool? unchanged⟩
  | _ => none

def readUpdate? (v : Value) : Option Update := do
  match ← record? ["source", "cache", "variant"] v with
  | [source, cache, variant] =>
    return ⟨← required? (readMap? (readMap? readString?)) source,
      ← default? ∅ (readMap? readDigest?) cache, ← default? .full readVariant? variant⟩
  | _ => none

def readNotice? (v : Value) : Option Notice := do
  match ← record? ["starting", "done", "message"] v with
  | [starting, done, text] =>
    return ⟨← default? false readBool? starting, ← default? false readBool? done,
      ← default? none (nullable? readString?) text⟩
  | _ => none

/-- A message of a kind, given its fields. -/
def ofKind? (kind : String) (v : Value) : Option Message :=
  if kind = "update" then (readUpdate? v).map update
  else if kind = "downloading" then (readNotice? v).map downloading
  else if kind = "updating" then (readNotice? v).map updating
  else if kind = "index" then do
    match ← record? ["packages"] v with
    | [packages] => return index (← required? (readMap? readIndexEntry?) packages)
    | _ => none
  else if kind = "archive" then do
    match ← record? ["path", "hash", "contents"] v with
    | [path, digest, contents] =>
      return archive (← required? readString? path) (← required? readDigest? digest)
        (← required? readString? contents)
    | _ => none
  else if kind = "error" then do
    match ← record? ["message", "path", "position"] v with
    | [text, path, position] =>
      return error (← required? readString? text) (← default? none (nullable? readString?) path)
        (← default? none (nullable? readPosition?) position)
    | _ => none
  else none

def kinds : List String := ["update", "downloading", "updating", "index", "archive", "error"]

/-- The kind of the message that a JSON value stands for, and its fields. -/
def tagged : Value → Except String (String × Value)
  | .object members =>
    match field? members "type" with
    | none => .error "duplicate field `type`"
    | some none => .error "missing field `type`"
    | some (some (.string kind)) => .ok (kind, .object (members.filter fun m => m.1 ≠ "type"))
    | some (some _) => .error "invalid type of field `type`"
  | .array (.string kind :: items) => .ok (kind, .array items)
  | .array [] => .error "missing field `type`"
  | .array _ => .error "invalid type of field `type`"
  | _ => .error "invalid type, expected internally tagged enum Message"

/-- The message that a JSON value stands for. -/
def ofValue (v : Value) : Except String Message := do
  let (kind, fields) ← tagged v
  if kind ∉ kinds then
    throw ("unknown variant `" ++ kind ++ "`, expected one of `" ++ "`, `".intercalate kinds ++ "`")
  match ofKind? kind fields with
  | none => throw ("invalid fields of variant `" ++ kind ++ "`")
  | some m => return m

/-- The message on a line, or why there is none. -/
def read (line : String) : Except String Message :=
  match Value.readStrict? line.toList with
  | none => .error "invalid JSON value"
  | some v => ofValue v

def read? (line : String) : Option Message := (read line).toOption

/-- The content of the `contents` of a module message. -/
def decodeContents? (contents : String) : Option ByteArray := Bytes.Base64.decode? contents

end Message

end Playground
