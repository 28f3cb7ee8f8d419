import Playground.Bytes.Hex
import Playground.Bytes.Sha256
import Std.Data.ExtTreeMap

/-!
# Digests

Content is named by the text of its SHA-256 digest, 64 hexadecimal digits.  A digest that a client
sends is taken as it is, so `Digest` holds any text.

`ofFiles` is the digest of a set of named files: it changes with a name as well as with content.
-/

namespace Playground

open Playground.Bytes

/-- A map from names to values, in the order of the names. -/
abbrev Named (α : Type) := Std.ExtTreeMap String α compare

/-- The name of some content. -/
structure Digest where
  text : String
  deriving DecidableEq, Repr

namespace Digest

/-- The number of bytes that `short` keeps. -/
def shortLength : Nat := 12

/-- The digest of a byte string. -/
def ofBytes (b : ByteArray) : Digest := ⟨Hex.encode (Sha256.digest b)⟩

/-- The line that stands for a file in the digest of a set of files. -/
def fileLine (name : String) (content : ByteArray) : ByteArray :=
  ("F:" ++ name ++ ":" ++ (ofBytes content).text ++ "\n").toByteArray

def fileLines (files : Named ByteArray) : ByteArray :=
  files.foldl (fun lines name content => lines.append (fileLine name content)) ByteArray.empty

/-- The digest of a set of named files. -/
def ofFiles (files : Named ByteArray) : Digest := ofBytes (fileLines files)

/-- The characters that take up the first `n` bytes; none when the cut falls inside one. -/
def cut? : (n : Nat) → List Char → Option (List Char)
  | 0, _ => some []
  | _, [] => some []
  | n + 1, c :: cs =>
    if c.utf8Size ≤ n + 1 then (cut? (n + 1 - c.utf8Size) cs).map (c :: ·) else none

/-- The beginning of a digest as it is printed; none when it ends inside a character. -/
def short? (d : Digest) : Option String := (cut? shortLength d.text.toList).map String.ofList

/-- The beginning of a digest as it is printed. -/
def short (d : Digest) : String := d.short?.getD d.text

end Digest

end Playground
