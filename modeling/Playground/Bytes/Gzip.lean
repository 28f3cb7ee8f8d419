import Playground.Bytes.Crc32
import Playground.Bytes.Deflate

/-!
# The gzip frame

Which frame a byte string is put in is up to an `Encoder`.  The one here writes stored blocks,
without a time or a name.  `decompress?` reads the first frame of its input, whatever optional
fields its header has.
-/

namespace Playground.Bytes.Gzip

/-- What puts byte strings in frames.  Equal input gives equal output. -/
class Encoder where
  /-- A byte string in a gzip frame. -/
  compress : ByteArray → ByteArray

export Encoder (compress)

/-- The header of the frames that are written here: deflate, no flags, no time, no system. -/
def header : List UInt8 := [0x1f, 0x8b, 8, 0, 0, 0, 0, 0, 0, 0xff]

/-- The check value and the length of the content. -/
def trailer (b : ByteArray) : List UInt8 :=
  littleEndian 4 (Crc32.value b).toNat ++ littleEndian 4 b.size

/-- A byte string in a frame of stored blocks. -/
def store (b : ByteArray) : ByteArray := ofOctets (header ++ octets (Deflate.store b) ++ trailer b)

instance storing : Encoder := ⟨store⟩

/-- What follows the next zero octet. -/
def afterZero : List UInt8 → Option (List UInt8)
  | [] => none
  | x :: xs => if x == 0 then some xs else afterZero xs

/-- What follows the header of a frame. -/
def skipHeader? (xs : List UInt8) : Option (List UInt8) :=
  match xs with
  | 0x1f :: 0x8b :: 8 :: flags :: _ :: _ :: _ :: _ :: _ :: _ :: rest => do
    let flag (i : Nat) : Bool := flags.toNat.testBit i
    let rest ←
      if flag 2 then
        let length := ofLittleEndian (rest.take 2)
        if rest.length < 2 + length then none else some (rest.drop (2 + length))
      else some rest
    let rest ← if flag 3 then afterZero rest else some rest
    let rest ← if flag 4 then afterZero rest else some rest
    if flag 1 then
      let read := xs.take (xs.length - rest.length)
      if rest.length < 2 then none
      else if ofLittleEndian (rest.take 2) = (Crc32.value (ofOctets read)).toNat % 65536 then
        some (rest.drop 2)
      else none
    else some rest
  | _ => none

/-- The content of a frame, and whether it was read to its end without a fault. -/
def unpack (b : ByteArray) : ByteArray × Bool :=
  match skipHeader? (octets b) with
  | none => (ByteArray.empty, false)
  | some rest =>
    match Deflate.inflate rest with
    | .error out => (out, false)
    | .ok (out, rest) => (out, rest.take 8 = trailer out)

/-- The content of a frame without a fault. -/
def decompress? (b : ByteArray) : Option ByteArray :=
  match unpack b with
  | (out, true) => some out
  | _ => none

end Playground.Bytes.Gzip
