import Playground.Bytes.Gzip
import Playground.Bytes.Tar
import Playground.Fetch.Host
import Playground.Web

/-!
# Mirrors

A mirror serves packages over the web, each as a compressed tape archive that has the files of the
package at its top.  What lies deeper belongs to other packages and is passed over.
-/

namespace Playground

/-- Where packages are mirrored. -/
structure Mirror where
  base : String
  deriving DecidableEq, Repr

namespace Mirror

/-- The mirror at an address. -/
def ofAddress (address : String) : Mirror := ⟨trimAddress address⟩

/-- What follows the import path in the address of a package. -/
def archiveSuffix : String := ".tar.gz"

def addressOf (m : Mirror) (importPath : String) : String :=
  m.base ++ "/" ++ importPath ++ archiveSuffix

/-- The import path in an address, if it is the address of a package. -/
def pathOf (m : Mirror) (address : String) : String :=
  let rest := address.toList.drop (m.base.toList.length + 1)
  String.ofList (rest.take (rest.length - archiveSuffix.toList.length))

theorem pathOf_addressOf (m : Mirror) (importPath : String) :
    m.pathOf (m.addressOf importPath) = importPath := by
  have h : (m.addressOf importPath).toList.drop (m.base.toList.length + 1) =
      importPath.toList ++ archiveSuffix.toList := by
    have hl : m.base.toList.length + 1 = (m.base.toList ++ ['/']).length := by simp
    rw [hl, addressOf, String.toList_append, String.toList_append, String.toList_append,
      show "/".toList = ['/'] from rfl, List.append_assoc (m.base.toList ++ ['/']), List.drop_left]
  simp only [pathOf, h, List.length_append, Nat.add_sub_cancel, List.take_left,
    String.ofList_toList]

/-- The name of a file at the top of an archive. -/
def topName? (name : List UInt8) : Option String :=
  if name.head? = some 47 then none
  else
    match String.fromUTF8? (Bytes.ofOctets name) with
    | none => none
    | some path =>
      match (Text.splitOn '/' path.toList).filter fun piece => piece ≠ [] && piece ≠ ['.'] with
      | [piece] => if piece = ['.', '.'] then none else some (String.ofList piece)
      | _ => none

/-- The files at the top of an archive; the last of several of one name counts. -/
def topFiles (entries : List Bytes.Tar.Entry) : SourceTree :=
  entries.foldl (fun files e =>
    if e.isFile then
      match topName? e.name with
      | some name => files.insert name (Bytes.ofOctets e.content)
      | none => files
    else files) ∅

/-- The files of a package in a compressed archive. -/
def unpack (importPath : String) (archive : ByteArray) : Except FetchError SourceTree :=
  let (bytes, complete) := Bytes.Gzip.unpack archive
  match Bytes.Tar.entries (Bytes.octets bytes) with
  | (_, some fault) => .error (.invalidArchive importPath fault.message)
  | (entries, none) =>
    if entries = [] && !complete then
      .error (.invalidArchive importPath "corrupt compressed data")
    else .ok (topFiles entries)

/-- What an answer to a request for a package means. -/
def interpret (importPath : String) : Exchange → Except FetchError SourceTree
  | .failed cause => .error (.unreachable importPath cause)
  | .answered status body complete =>
    if status = 404 then .error (.notFound importPath)
    else if !isSuccess status then .error (.unreachable importPath (statusText status))
    else if !complete then .error (.unreachable importPath "error decoding response body")
    else unpack importPath body

/-- The host that asks a mirror.  Its state is the addresses it asked for, newest first. -/
def host (m : Mirror) (web : Web) : Host (List String) where
  fetch path asked := (interpret path (web.get (m.addressOf path)), m.addressOf path :: asked)
  served := web.pages.keys.map m.pathOf
  mem_served := by
    intro path asked h
    refine List.mem_map.2 ⟨m.addressOf path, ?_, m.pathOf_addressOf path⟩
    refine Std.ExtTreeMap.mem_keys.2 (Classical.byContradiction fun hn => ?_)
    simp [Web.get, Std.ExtTreeMap.getElem?_eq_none hn, interpret, Except.isOk, Except.toBool] at h

end Mirror

end Playground
