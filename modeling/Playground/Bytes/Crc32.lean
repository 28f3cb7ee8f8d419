import Playground.Bytes.Octets

/-!
# The cyclic redundancy check of the gzip trailer

CRC-32 with the reflected polynomial `0xEDB88320`, one octet at a time.
-/

namespace Playground.Bytes.Crc32

/-- Division of one bit by the polynomial. -/
def bit (r : UInt32) : UInt32 := if r &&& 1 == 1 then (r >>> 1) ^^^ 0xEDB88320 else r >>> 1

/-- The register after the octet `x`. -/
def octet (r : UInt32) (x : UInt8) : UInt32 :=
  (List.range 8).foldl (fun r _ => bit r) (r ^^^ x.toUInt32)

/-- The check value of a byte string. -/
def value (b : ByteArray) : UInt32 := (octets b).foldl octet 0xFFFFFFFF ^^^ 0xFFFFFFFF

end Playground.Bytes.Crc32
