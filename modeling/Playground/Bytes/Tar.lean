import Playground.Bytes.Octets

/-!
# Tape archives

An archive is a sequence of entries, each a header block of 512 octets followed by its content,
filled up to whole blocks.  It ends with an empty block or with its input.  An entry may be
preceded by one that holds a name too long for its header.
-/

namespace Playground.Bytes.Tar

/-- The number of octets of a block. -/
def blockSize : Nat := 512

/-- What is wrong with an archive. -/
inductive Fault where
  | truncated
  | checksum
  | number
  deriving DecidableEq, Repr

def Fault.message : Fault → String
  | truncated => "archive ends inside an entry"
  | checksum => "archive header checksum mismatch"
  | number => "archive header holds no number where one is due"

structure Entry where
  name : List UInt8
  /-- The octet that tells the kind of entry. -/
  kind : UInt8
  content : List UInt8

def Entry.isFile (e : Entry) : Bool := e.kind == 48 || e.kind == 0

/-- Some octets of a header. -/
def field (header : List UInt8) (start length : Nat) : List UInt8 := (header.drop start).take length

/-- The octets before the first zero. -/
def beforeZero (xs : List UInt8) : List UInt8 := xs.takeWhile (· ≠ 0)

/-- Whether an octet is a space or a zero. -/
def isFiller (x : UInt8) : Bool := x == 32 || x == 0

/-- The number that octal digits between fillers spell, or the octets of a large number. -/
def number? (xs : List UInt8) : Option Nat :=
  match xs with
  | x :: rest =>
    if x ≥ 128 then some (rest.foldl (fun n y => 256 * n + y.toNat) (x.toNat - 128))
    else
      let digits := (beforeZero (xs.dropWhile isFiller)).reverse.dropWhile isFiller
      if digits.all fun d => 48 ≤ d && d ≤ 55 then
        some (digits.reverse.foldl (fun n d => 8 * n + (d.toNat - 48)) 0)
      else none
  | [] => none

/-- The sum of the octets of a header, those of the sum itself taken as spaces. -/
def checksum (header : List UInt8) : Nat :=
  let others := header.take 148 ++ List.replicate 8 32 ++ header.drop 156
  others.foldl (fun n x => n + x.toNat) 0

/-- The name in a header. -/
def headerName (header : List UInt8) : List UInt8 :=
  let name := beforeZero (field header 0 100)
  let stem := beforeZero (field header 345 155)
  if field header 257 6 = [117, 115, 116, 97, 114, 0] ∧ stem ≠ [] then stem ++ 47 :: name else name

/-- The number of octets that fill up a content to whole blocks. -/
def padding (size : Nat) : Nat := (blockSize - size % blockSize) % blockSize

/-- The entries of an archive, at most `limit` of them, and the fault that ends them if there is
one.  `longName` is the name that an entry before gave. -/
def entriesFrom : (limit : Nat) → (longName : Option (List UInt8)) → List UInt8 →
    List Entry × Option Fault
  | 0, _, _ => ([], none)
  | limit + 1, longName, xs =>
    let header := xs.take blockSize
    if xs = [] ∨ header.all (· == 0) ∧ header.length = blockSize then ([], none)
    else if header.length < blockSize then ([], some .truncated)
    else
      match number? (field header 148 8), number? (field header 124 12) with
      | some sum, some size =>
        if sum ≠ checksum header then ([], some .checksum)
        else
          let rest := xs.drop blockSize
          let content := rest.take size
          if content.length < size then ([], some .truncated)
          else
            let rest := rest.drop (size + padding size)
            let kind := header.getD 156 0
            if kind = 76 then entriesFrom limit (some (beforeZero content)) rest
            else
              let entry : Entry := ⟨longName.getD (headerName header), kind, content⟩
              let (entries, fault) := entriesFrom limit none rest
              (entry :: entries, fault)
      | _, _ => ([], some .number)

/-- The entries of an archive, and the fault that ends them if there is one. -/
def entries (xs : List UInt8) : List Entry × Option Fault :=
  entriesFrom (xs.length / blockSize + 1) none xs

end Playground.Bytes.Tar
